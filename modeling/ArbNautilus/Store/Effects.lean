import ArbNautilus.Store.Obligations

namespace ArbNautilus.Store

open Base

/-- The state a call hands to its publication. -/
inductive Change.Yields {σ α : Type} : Change σ α → σ → Prop where
  | publishes (t : σ) (a : α) : Yields (.publishes t a) t
  | reserves (t : σ) (a : α) : Yields (.reserves t a) t

namespace Change

variable {σ α : Type}

@[simp] theorem yields_raises (e : Raised) (t : σ) :
    (Change.raises e : Change σ α).Yields t ↔ False :=
  ⟨nofun, nofun⟩

@[simp] theorem yields_keeps (a : α) (t : σ) : (Change.keeps a : Change σ α).Yields t ↔ False :=
  ⟨nofun, nofun⟩

@[simp] theorem yields_publishes (u : σ) (a : α) (t : σ) :
    (Change.publishes u a).Yields t ↔ u = t := by
  constructor
  · intro h; cases h; rfl
  · rintro rfl; exact .publishes u a

@[simp] theorem yields_reserves (u : σ) (a : α) (t : σ) :
    (Change.reserves u a).Yields t ↔ u = t := by
  constructor
  · intro h; cases h; rfl
  · rintro rfl; exact .reserves u a

theorem yields_of_publishes {c : Change σ α} {t : σ} {a : α} (h : c = .publishes t a) :
    c.Yields t :=
  h ▸ .publishes t a

end Change

namespace StoreState

/-- A loop over distinct stored intents keeps what each replacement keeps. -/
theorem mapIntents_invariant {f : HedgeIntent → Except Raised HedgeIntent} {P : StoreState → Prop}
    {intents : List HedgeIntent}
    (step : ∀ u intent replaced, intent ∈ intents → P u →
      u.hedgeIntents.get? intent.intentId = some intent → f intent = .ok replaced →
      P (u.setIntent intent.intentId replaced))
    {s t : StoreState} (h : P s)
    (distinct : (intents.map (·.intentId)).Nodup)
    (present : ∀ intent ∈ intents, s.hedgeIntents.get? intent.intentId = some intent)
    (mapped : mapIntents f s intents = .ok t) : P t := by
  induction intents generalizing s with
  | nil =>
    simp only [mapIntents, List.foldlM_nil, pure_eq_ok] at mapped
    exact mapped ▸ h
  | cons intent rest ih =>
    simp only [mapIntents, List.foldlM_cons, bind_eq_ok, pure_eq_ok] at mapped
    obtain ⟨u, ⟨replaced, made, rfl⟩, mapped⟩ := mapped
    obtain ⟨fresh, distinct⟩ := List.nodup_cons.1 distinct
    refine ih (fun u other replaced member => step u other replaced (by simp [member]))
      (step s intent replaced (by simp) h (present intent (by simp)) made) distinct
      (fun later member => ?_) mapped
    have apart : intent.intentId ≠ later.intentId := fun eq =>
      fresh (List.mem_map.2 ⟨later, member, eq.symm⟩)
    simpa [setIntent, Dict.get?_set_of_ne _ apart] using present later (by simp [member])

theorem recoverForStart_yields {s t : StoreState} (h : s.recoverForStart.Yields t) :
    ∃ orders v halt,
      (orders = s.sourceOrders ∨ ∃ active current, s.sourceOrders.get? active = some current ∧
        orders = s.sourceOrders.set active { current with status := "UNKNOWN" }) ∧
      mapIntents markUnknown { s with sourceOrders := orders }
        ((s.hedgeIntents.values.filter (·.status ≠ .completed)).filter
          (·.status ∈ inFlight)) = .ok v ∧
      t = { v with haltReason := halt } := by
  unfold recoverForStart at h
  dsimp only at h
  split at h
  · simp at h
  · split at h
    · split at h
      · simp at h
      · rename_i v mapped
        rw [Change.yields_publishes] at h
        exact ⟨_, v, _, .inl rfl, mapped, h.symm⟩
    · split at h
      · simp at h
      · rename_i active _ _ current found
        split at h
        · simp at h
        · rename_i v mapped
          rw [Change.yields_publishes] at h
          exact ⟨_, v, _, .inr ⟨active, current, found, rfl⟩, mapped, h.symm⟩

/-- Replacing intents touches nothing else. -/
theorem mapIntents_frame {f : HedgeIntent → Except Raised HedgeIntent} {intents : List HedgeIntent}
    {s t : StoreState} (mapped : mapIntents f s intents = .ok t) :
    ∃ d, t = { s with hedgeIntents := d } := by
  refine foldlM_invariant (P := fun u => ∃ d, u = { s with hedgeIntents := d })
    (fun u intent v kept turn => ?_) ⟨s.hedgeIntents, rfl⟩ mapped
  simp only [bind_eq_ok, pure_eq_ok] at turn
  obtain ⟨replaced, -, rfl⟩ := turn
  obtain ⟨d, rfl⟩ := kept
  exact ⟨_, rfl⟩

/-- Recovery keeps a halt that stands and otherwise sets its own. -/
theorem recoverForStart_halt {s t : StoreState} (h : s.recoverForStart.Yields t) :
    ∃ reason, t.haltReason = some (s.haltReason.getD reason) := by
  unfold recoverForStart at h
  dsimp only at h
  split at h
  · simp at h
  · split at h
    · split at h
      · simp at h
      · rename_i v mapped
        rw [Change.yields_publishes] at h
        obtain ⟨d, rfl⟩ := mapIntents_frame mapped
        subst h
        exact ⟨_, rfl⟩
    · split at h
      · simp at h
      · split at h
        · simp at h
        · rename_i v mapped
          rw [Change.yields_publishes] at h
          obtain ⟨d, rfl⟩ := mapIntents_frame mapped
          subst h
          exact ⟨_, rfl⟩

theorem bindHedgeOrder_yields {s t : StoreState} {intentId clientOrderId : String}
    (h : (s.bindHedgeOrder intentId clientOrderId).Yields t) :
    ∃ intent bound, s.hedgeIntents.get? intentId = some intent ∧
      intent.status = .pending ∧ intent.hedgeClientOrderId = none ∧ clientOrderId ≠ "" ∧
      (∀ existing ∈ s.hedgeIntents.values, existing.hedgeClientOrderId ≠ some clientOrderId ∧
        clientOrderId ∉ existing.hedgeOrderIds) ∧
      bound.toIntentFields = { intent.toIntentFields with
        hedgeClientOrderId := some clientOrderId
        hedgeOrderIds := intent.hedgeOrderIds ++ [clientOrderId]
        status := .submitting } ∧
      t = s.setIntent intentId bound := by
  unfold bindHedgeOrder at h
  split at h
  · simp at h
  · rename_i intent found
    split at h
    · simp at h
    · rename_i free
      push Not at free
      obtain ⟨pending, unbound, nonempty, fresh⟩ := free
      split at h
      · simp at h
      · rename_i bound made
        rw [Change.yields_publishes] at h
        exact ⟨intent, bound, found, pending, unbound, nonempty, fresh,
          IntentFields.make_eq_ok made, h.symm⟩

theorem bindHedgePlan_yields {s t : StoreState} {intentId : String} {plan : List HedgeLeg}
    (h : (s.bindHedgePlan intentId plan).Yields t) :
    ∃ intent planned, s.hedgeIntents.get? intentId = some intent ∧ intent.hedgePlan = [] ∧
      intent.status = .pending ∧ intent.hedgeClientOrderId = none ∧
      intent.hedgeFilledOunces = 0 ∧ plan ≠ [] ∧
      planned.toIntentFields = { intent.toIntentFields with
        hedgePlan := plan
        hedgeLegIndex := 0
        hedgeLegFilledOunces := 0 } ∧
      t = s.setIntent intentId planned := by
  unfold bindHedgePlan at h
  split at h
  · simp at h
  · rename_i intent found
    split at h
    · split at h <;> simp at h
    · rename_i unplanned
      split at h
      · simp at h
      · rename_i checked
        simp only [checkBinding, bind_unit_eq_ok, raiseIf_eq_ok, not_or, not_not] at checked
        obtain ⟨⟨pending, unbound, unfilled⟩, nonempty, -, -⟩ := checked
        split at h
        · simp at h
        · rename_i planned made
          rw [Change.yields_publishes] at h
          exact ⟨intent, planned, found, not_not.1 unplanned, pending, unbound, unfilled,
            nonempty, IntentFields.make_eq_ok made, h.symm⟩

theorem blockHedgeIntent_yields {s t : StoreState} {intentId reason : String}
    (h : (s.blockHedgeIntent intentId reason).Yields t) :
    ∃ intent blocked, s.hedgeIntents.get? intentId = some intent ∧
      intent.status ≠ .completed ∧
      blocked.toIntentFields = { intent.toIntentFields with status := .blocked } ∧
      t = { s.setIntent intentId blocked with
        haltReason := some ("hedge " ++ intentId ++ " blocked: " ++ reason) } := by
  unfold blockHedgeIntent at h
  split at h
  · simp at h
  · rename_i intent found
    split at h
    · simp at h
    · rename_i unfinished
      split at h
      · simp at h
      · split at h
        · simp at h
        · rename_i blocked made
          rw [Change.yields_publishes] at h
          exact ⟨intent, blocked, found, unfinished, IntentFields.make_eq_ok made, h.symm⟩

theorem holdRejectedAttempt_eq_ok {s t : StoreState} {intent : HedgeIntent}
    {clientOrderId fact : String} {changed : Bool}
    (h : s.holdRejectedAttempt intent clientOrderId fact = .ok (t, changed)) :
    ∃ blocked : HedgeIntent,
      blocked.toIntentFields = { intent.toIntentFields with status := .blocked } ∧
      t = { s.setIntent intent.intentId blocked with
        haltReason := some (conflictReason clientOrderId fact) } := by
  simp only [holdRejectedAttempt, bind_eq_ok, pure_eq_ok, Prod.mk.injEq] at h
  obtain ⟨blocked, made, rfl, -⟩ := h
  exact ⟨blocked, IntentFields.make_eq_ok made, rfl⟩

theorem updateHedgeStatus_yields {s t : StoreState} {clientOrderId : String}
    {status : ObligationStatus} {nativeStatus : Option String}
    (h : (s.updateHedgeStatus clientOrderId status nativeStatus).Yields t) :
    ∃ intent updated, s.intentForHedgeOrder clientOrderId = some intent ∧
      t.hedgeIntents = s.hedgeIntents.set intent.intentId updated ∧
      t.sourceOrders = s.sourceOrders ∧ t.seenSourceFills = s.seenSourceFills ∧
      t.seenHedgeFills = s.seenHedgeFills ∧ t.netUnhedgedOunces = s.netUnhedgedOunces ∧
      ((isRejectedAttempt intent clientOrderId ∧
          t.haltReason = some (conflictReason clientOrderId "terminal status") ∧
          updated.toIntentFields = { intent.toIntentFields with status := .blocked }) ∨
        (¬isRejectedAttempt intent clientOrderId ∧ ¬intent.status.Unresolved ∧
          t.haltReason = (if status = .rejected ∨ status = .unknown then
            some ("hedge " ++ clientOrderId ++ " has unresolved status " ++ status.value)
            else s.haltReason) ∧
          updated.toIntentFields = { intent.toIntentFields with status })) := by
  unfold updateHedgeStatus at h
  split at h
  · simp at h
  · rename_i intent found
    split at h
    · rename_i archived
      split at h
      · split at h
        · simp at h
        · rename_i t' changed held
          obtain ⟨blocked, fields, rfl⟩ := holdRejectedAttempt_eq_ok held
          split at h
          · rw [Change.yields_publishes] at h
            subst h
            exact ⟨intent, blocked, found, rfl, rfl, rfl, rfl, rfl, .inl ⟨archived, rfl, fields⟩⟩
          · simp at h
      · simp at h
    · rename_i current
      split at h
      · simp at h
      · rename_i resolved
        split at h
        · simp at h
        · rename_i updated made
          rw [Change.yields_publishes] at h
          subst h
          exact ⟨intent, updated, found, rfl, rfl, rfl, rfl, rfl,
            .inr ⟨current, resolved, rfl, IntentFields.make_eq_ok made⟩⟩

/-- The three things a recorded fill makes of its intent. -/
inductive Advance (intent : HedgeIntent) (fill : HedgeFill) : IntentFields → Prop where
  | held (legFilled : ℚ) (grows : intent.hedgeLegFilledOunces ≤ legFilled)
      (last : intent.hedgeLegIndex = intent.hedgePlan.length →
        legFilled = intent.hedgeLegFilledOunces) :
      Advance intent fill (holdFill intent fill legFilled)
  | legDone (planned : intent.hedgePlan ≠ []) (resolved : ¬intent.status.Unresolved)
      (leg : HedgeLeg) (current : intent.hedgePlan[intent.hedgeLegIndex]? = some leg)
      (whole : fill.fillOunces = leg.quantityOunces - intent.hedgeLegFilledOunces) :
      Advance intent fill (finishLeg intent fill)
  | single (unplanned : intent.hedgePlan = []) (resolved : ¬intent.status.Unresolved) :
      Advance intent fill (addFill intent fill)

theorem advanceFields_advance (intent : HedgeIntent) {fill : HedgeFill}
    (positive : 0 < fill.fillOunces) (halt blockedReason : Option String) :
    Advance intent fill (advanceFields intent fill halt blockedReason).1 := by
  unfold advanceFields
  split
  · refine .held _ ?_ ?_
    · split
      · linarith
      · exact le_refl _
    · intro last
      rw [if_neg (by omega)]
  · rename_i free
    have resolved : ¬intent.status.Unresolved := fun unresolved => free (.inr unresolved)
    split
    · rename_i unplanned
      exact .single unplanned resolved
    · rename_i planned
      split
      · exact .held _ (le_refl _) fun _ => rfl
      · rename_i leg current
        have inside : intent.hedgeLegIndex < intent.hedgePlan.length :=
          (List.getElem?_eq_some_iff.1 current).1
        split
        · exact .held _ (by linarith) fun last => by omega
        · rename_i same
          exact .legDone planned resolved leg current (not_not.1 same)

theorem planQuantity_take_succ {plan : List HedgeLeg} {index : ℕ} {leg : HedgeLeg}
    (current : plan[index]? = some leg) :
    planQuantity (plan.take (index + 1)) = planQuantity (plan.take index) + leg.quantityOunces := by
  simp [planQuantity, List.take_add_one, current]

theorem holdFill_sound {intent : HedgeIntent} {fill : HedgeFill} {legFilled : ℚ}
    (positive : 0 < fill.fillOunces) (grows : intent.hedgeLegFilledOunces ≤ legFilled)
    (last : intent.hedgeLegIndex = intent.hedgePlan.length →
      legFilled = intent.hedgeLegFilledOunces) : (holdFill intent fill legFilled).Sound := by
  have old := intent.sound
  refine ⟨old.ticket, old.ticketPositive, old.quantityPositive, ?_, old.indexBound, ?_,
    old.orderIds, fun attempt archived => ?_, fun unplanned => ?_, fun planned => ?_⟩
  · have nonneg := old.filledNonneg
    change 0 ≤ intent.hedgeFilledOunces + fill.fillOunces
    linarith
  · exact le_trans old.legFilledNonneg grows
  · have kept := old.attempt attempt archived
    exact ⟨kept.planned, kept.retained, kept.legBound, kept.position, kept.past, kept.released,
      kept.history, kept.current⟩
  · obtain ⟨index, filled⟩ := old.unplanned unplanned
    have empty : intent.hedgePlan = [] := unplanned
    exact ⟨index, (last (by simp [index, empty])).trans filled⟩
  · have plan := old.planned planned
    exact ⟨plan.sides, plan.quantity, fun h => (last h).trans (plan.done h),
      fun _ open' => absurd rfl open', fun open' => absurd rfl open', nofun⟩

theorem finishLeg_sound {intent : HedgeIntent} {fill : HedgeFill} {leg : HedgeLeg}
    (positive : 0 < fill.fillOunces) (bound : intent.hedgeClientOrderId ≠ none)
    (planned : intent.hedgePlan ≠ []) (resolved : ¬intent.status.Unresolved)
    (current : intent.hedgePlan[intent.hedgeLegIndex]? = some leg)
    (whole : fill.fillOunces = leg.quantityOunces - intent.hedgeLegFilledOunces) :
    (finishLeg intent fill).Sound := by
  have old := intent.sound
  have plan := old.planned planned
  have inside : intent.hedgeLegIndex < intent.hedgePlan.length :=
    (List.getElem?_eq_some_iff.1 current).1
  have unblocked : intent.status ≠ .blocked := fun h => resolved (.inl h)
  have progress : intent.hedgeFilledOunces + fill.fillOunces =
      planQuantity (intent.hedgePlan.take (intent.hedgeLegIndex + 1)) := by
    rw [planQuantity_take_succ current, plan.filled unblocked, whole]
    ring
  refine ⟨old.ticket, old.ticketPositive, old.quantityPositive, ?_, inside, le_refl _,
    old.orderIds, fun attempt archived => ?_, fun unplanned => absurd unplanned planned,
    fun _ => ⟨plan.sides, plan.quantity, fun _ => rfl, ?_, ?_, ?_⟩⟩
  · have nonneg := old.filledNonneg
    change 0 ≤ intent.hedgeFilledOunces + fill.fillOunces
    linarith
  · have kept := old.attempt attempt archived
    obtain ⟨order, is_order⟩ := Option.ne_none_iff_exists'.1 bound
    refine ⟨kept.planned, kept.retained, kept.legBound, kept.position, Nat.le_succ_of_le kept.past,
      nofun, ?_, fun absent => absurd rfl absent⟩
    have history := kept.history
    rw [is_order] at history
    exact history
  · intro _ _ next _
    exact next.quantity_pos
  · intro _
    exact progress.trans (zero_add _).symm
  · intro completed
    change (if intent.hedgeLegIndex + 1 = intent.hedgePlan.length then ObligationStatus.completed
      else .pending) = .completed at completed
    split at completed
    · rename_i last
      refine ⟨last, progress.trans ?_⟩
      rw [last, List.take_length]
      exact plan.quantity
    · cases completed

theorem addFill_sound {intent : HedgeIntent} {fill : HedgeFill} (positive : 0 < fill.fillOunces)
    (unplanned : intent.hedgePlan = []) : (addFill intent fill).Sound := by
  have old := intent.sound
  refine ⟨old.ticket, old.ticketPositive, old.quantityPositive, ?_, old.indexBound,
    old.legFilledNonneg, old.orderIds, fun attempt archived => ?_, old.unplanned,
    fun planned => absurd unplanned planned⟩
  · have nonneg := old.filledNonneg
    change 0 ≤ intent.hedgeFilledOunces + fill.fillOunces
    linarith
  · have kept := old.attempt attempt archived
    exact absurd unplanned kept.planned

theorem Advance.sound {intent : HedgeIntent} {fill : HedgeFill} {advanced : IntentFields}
    (h : Advance intent fill advanced) (positive : 0 < fill.fillOunces)
    (bound : intent.hedgeClientOrderId ≠ none) : advanced.Sound := by
  cases h with
  | held _ grows last => exact holdFill_sound positive grows last
  | legDone planned resolved _ current whole =>
    exact finishLeg_sound positive bound planned resolved current whole
  | single unplanned _ => exact addFill_sound positive unplanned

theorem blocked_sound (intent : HedgeIntent) :
    ({ intent.toIntentFields with status := .blocked } : IntentFields).Sound := by
  have old := intent.sound
  refine ⟨old.ticket, old.ticketPositive, old.quantityPositive, old.filledNonneg, old.indexBound,
    old.legFilledNonneg, old.orderIds, fun attempt archived => ?_, old.unplanned, fun planned => ?_⟩
  · have kept := old.attempt attempt archived
    exact ⟨kept.planned, kept.retained, kept.legBound, kept.position, kept.past, kept.released,
      kept.history, kept.current⟩
  · have plan := old.planned planned
    exact ⟨plan.sides, plan.quantity, plan.done, fun _ open' => absurd rfl open',
      fun open' => absurd rfl open', nofun⟩

/-- Blocking never fails: a late fact about an archived order always lands. -/
theorem holdRejectedAttempt_total (s : StoreState) (intent : HedgeIntent)
    (clientOrderId fact : String) :
    ∃ t changed, s.holdRejectedAttempt intent clientOrderId fact = .ok (t, changed) ∧
      (changed = false → s.haltReason = some (conflictReason clientOrderId fact)) := by
  obtain ⟨blocked, made, -⟩ := (blocked_sound intent).make
  refine ⟨_, _, by rw [holdRejectedAttempt, made]; rfl, fun unchanged => ?_⟩
  simp only [decide_eq_false_iff_not, not_or, not_not] at unchanged
  exact unchanged.2

theorem Advance.filled {intent : HedgeIntent} {fill : HedgeFill} {advanced : IntentFields}
    (h : Advance intent fill advanced) :
    advanced.hedgeFilledOunces = intent.hedgeFilledOunces + fill.fillOunces := by
  cases h <;> rfl

/-- A fill leaves everything but progress, status and the current order alone. -/
theorem Advance.frame {intent : HedgeIntent} {fill : HedgeFill} {advanced : IntentFields}
    (h : Advance intent fill advanced) :
    advanced.intentId = intent.intentId ∧ advanced.fillKey = intent.fillKey ∧
    advanced.hedgeSide = intent.hedgeSide ∧
    advanced.hedgeQuantityOunces = intent.hedgeQuantityOunces ∧
    advanced.hedgeOrderIds = intent.hedgeOrderIds ∧
    advanced.rejectedAttempt = intent.rejectedAttempt ∧
    (advanced.hedgeClientOrderId = intent.hedgeClientOrderId ∨
      advanced.hedgeClientOrderId = none) := by
  cases h with
  | held => simp [holdFill]
  | legDone => simp [finishLeg]
  | single => simp [addFill]

theorem applyFill_eq_ok {s t : StoreState} {fill : HedgeFill} {blockedReason : Option String}
    {changed : Bool} (h : s.applyFill fill blockedReason = .ok (t, changed)) :
    (t = s ∧ changed = false ∧
      (fill.fillKey ∈ s.seenHedgeFills ∨ s.intentForHedgeOrder fill.clientOrderId = none)) ∨
    (∃ intent blocked, fill.fillKey ∉ s.seenHedgeFills ∧
      s.intentForHedgeOrder fill.clientOrderId = some intent ∧
      isRejectedAttempt intent fill.clientOrderId ∧
      blocked.toIntentFields = { intent.toIntentFields with status := .blocked } ∧
      t = { s.setIntent intent.intentId blocked with
        haltReason := some (conflictReason fill.clientOrderId "late fill") }) ∨
    (∃ intent, ∃ advanced : HedgeIntent, fill.fillKey ∉ s.seenHedgeFills ∧
      s.intentForHedgeOrder fill.clientOrderId = some intent ∧
      ¬isRejectedAttempt intent fill.clientOrderId ∧ 0 < fill.fillOunces ∧
      advanced.toIntentFields =
        (advanceFields intent fill s.haltReason blockedReason).1 ∧ changed = true ∧
      t = { s.setIntent intent.intentId advanced with
        seenHedgeFills := insert fill.fillKey s.seenHedgeFills
        haltReason := (advanceFields intent fill s.haltReason blockedReason).2 }) := by
  unfold applyFill at h
  split at h
  · rename_i seen
    simp only [Except.ok.injEq, Prod.mk.injEq] at h
    obtain ⟨rfl, rfl⟩ := h
    exact .inl ⟨rfl, rfl, .inl seen⟩
  · rename_i unseen
    split at h
    · rename_i missing
      simp only [Except.ok.injEq, Prod.mk.injEq] at h
      obtain ⟨rfl, rfl⟩ := h
      exact .inl ⟨rfl, rfl, .inr missing⟩
    · rename_i intent found
      split at h
      · rename_i archived
        obtain ⟨blocked, fields, rfl⟩ := holdRejectedAttempt_eq_ok h
        exact .inr (.inl ⟨intent, blocked, unseen, found, archived, fields, rfl⟩)
      · rename_i current
        rw [bind_unit_eq_ok, raiseIf_eq_ok, not_le] at h
        obtain ⟨positive, h⟩ := h
        simp only [bind_eq_ok, pure_eq_ok, Prod.mk.injEq] at h
        obtain ⟨advanced, made, rfl, rfl⟩ := h
        exact .inr (.inr ⟨intent, advanced, unseen, found, current, positive,
          IntentFields.make_eq_ok made, rfl, rfl⟩)

theorem applyHedgeFill_yields {s t : StoreState} {fill : HedgeFill}
    (h : (s.applyHedgeFill fill).Yields t) :
    fill.fillKey ∉ s.seenHedgeFills ∧ s.applyFill fill none = .ok (t, true) := by
  unfold applyHedgeFill at h
  split at h
  · simp at h
  · rename_i known
    split at h
    · simp at h
    · rename_i t' changed applied
      split at h
      · rename_i moved
        rw [Change.yields_reserves] at h
        subst h moved
        exact ⟨fun seen => known (.inl seen), applied⟩
      · simp at h

theorem intentForHedgeOrder_eq_some {s : StoreState} {clientOrderId : String}
    {intent : HedgeIntent} (h : s.intentForHedgeOrder clientOrderId = some intent) :
    (intent.hedgeClientOrderId = some clientOrderId ∨ isRejectedAttempt intent clientOrderId) ∧
      ∃ k, s.hedgeIntents.get? k = some intent := by
  simpa using Dict.first_eq_some h

theorem intentForHedgeOrder_eq_none {s : StoreState} {clientOrderId : String} :
    s.intentForHedgeOrder clientOrderId = none ↔
      ∀ k intent, s.hedgeIntents.get? k = some intent →
        intent.hedgeClientOrderId ≠ some clientOrderId ∧
          ¬isRejectedAttempt intent clientOrderId := by
  simp [intentForHedgeOrder, Dict.first_eq_none_iff]

theorem recordSourceFill_eq_ok {s t : StoreState} {record : SourceOrderRecord} {fill : SourceFill}
    {blockedReason : Option String} (h : s.recordSourceFill record fill blockedReason = .ok t) :
    record.side = fill.sourceSide ∧ 0 < fill.fillOunces ∧
    (∃ status, t.sourceOrders = s.sourceOrders.set fill.clientOrderId
      { record with filledOunces := record.filledOunces + fill.fillOunces, status }) ∧
    t.seenSourceFills = insert fill.fillKey s.seenSourceFills ∧
    t.seenHedgeFills = s.seenHedgeFills ∧ t.hedgeIntents = s.hedgeIntents ∧
    t.netUnhedgedOunces = s.netUnhedgedOunces := by
  simp only [recordSourceFill, bind_unit_eq_ok, raiseIf_eq_ok, not_not, not_le] at h
  obtain ⟨side, positive, h⟩ := h
  split at h <;> simp only [pure_eq_ok] at h <;> subst h <;>
    exact ⟨side, positive, ⟨_, rfl⟩, rfl, rfl, rfl, rfl⟩

theorem openHedgeIntent_eq_ok {digest : String → String} {s t : StoreState}
    {record : SourceOrderRecord} {fill : SourceFill} {blockedReason : Option String} {rounded : ℤ}
    {opened : Option HedgeIntent}
    (h : s.openHedgeIntent digest record fill blockedReason rounded = .ok (t, opened)) :
    (rounded = 0 ∧ t = s ∧ opened = none) ∨
    (rounded ≠ 0 ∧ ∃ intent : HedgeIntent,
      intent.toIntentFields = openedIntent digest record fill blockedReason rounded ∧
      opened = some intent ∧ t = s.setIntent intent.intentId intent) := by
  unfold openHedgeIntent at h
  split at h
  · rename_i zero
    simp only [Except.ok.injEq, Prod.mk.injEq] at h
    exact .inl ⟨zero, h.1.symm, h.2.symm⟩
  · rename_i nonzero
    simp only [bind_eq_ok, pure_eq_ok, Prod.mk.injEq] at h
    obtain ⟨intent, made, rfl, rfl⟩ := h
    exact .inr ⟨nonzero, intent, IntentFields.make_eq_ok made, rfl, rfl⟩

end StoreState

end ArbNautilus.Store
