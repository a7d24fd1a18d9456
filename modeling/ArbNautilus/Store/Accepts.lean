import ArbNautilus.Store.Legs

namespace ArbNautilus.Store

open Base

/-- The texts the constructor rejects a record with. -/
def IntentFields.rejections : List String := [
  "bound hedge position quantity requires a position ID",
  "bound hedge position quantity must be positive and finite",
  "hedge intent quantity must be a positive finite Decimal",
  "hedge filled quantity must be a non-negative finite Decimal",
  "hedge plan index is out of bounds",
  "hedge leg fill must be a non-negative finite Decimal",
  "hedge order history must contain unique non-empty IDs",
  "rejected hedge attempt does not match its retained plan history",
  "rejected hedge attempt has inconsistent subsequent leg history",
  "unplanned hedge intent cannot have leg progress",
  "hedge plan side does not match its intent",
  "hedge plan quantity does not match its intent",
  "completed hedge plan cannot retain a partial leg fill",
  "hedge leg progress must advance at the planned quantity",
  "hedge aggregate fill does not match its leg progress",
  "completed hedge intent has incomplete plan progress"]

theorem never_rejection {e : Raised} (i : IntentFields)
    (other : ∀ text ∈ IntentFields.rejections, Raised.valueError text ≠ e) :
    Never e i.postInit := by
  have attempts : Never e i.checkAttempts := by
    unfold IntentFields.checkAttempts
    split
    · exact never_pure ()
    · exact never_bind (never_raiseIf (other _ (by simp [IntentFields.rejections])))
        fun _ => never_raiseIf (other _ (by simp [IntentFields.rejections]))
  have leg : Never e i.checkLeg := by
    unfold IntentFields.checkLeg
    split <;> exact never_raiseIf (other _ (by simp [IntentFields.rejections]))
  have progress : Never e i.checkProgress := by
    unfold IntentFields.checkProgress
    split
    · exact never_raiseIf (other _ (by simp [IntentFields.rejections]))
    · refine never_bind (never_raiseIf (other _ ?_)) fun _ =>
        never_bind (never_raiseIf (other _ ?_)) fun _ => never_bind leg fun _ =>
        never_bind (never_raiseIf (other _ ?_)) fun _ => never_raiseIf (other _ ?_) <;>
        simp [IntentFields.rejections]
  refine never_bind (never_raiseIf (other _ ?_)) fun _ =>
    never_bind (never_raiseIf (other _ ?_)) fun _ =>
    never_bind (never_raiseIf (other _ ?_)) fun _ =>
    never_bind (never_raiseIf (other _ ?_)) fun _ =>
    never_bind (never_raiseIf (other _ ?_)) fun _ =>
    never_bind (never_raiseIf (other _ ?_)) fun _ =>
    never_bind (never_raiseIf (other _ ?_)) fun _ => never_bind attempts fun _ => progress <;>
    simp [IntentFields.rejections]

theorem make_ne_of_foreign {e : Raised}
    (other : ∀ text ∈ IntentFields.rejections, Raised.valueError text ≠ e) (i : IntentFields) :
    i.make ≠ .error e := by
  unfold IntentFields.make
  split
  · nofun
  · rename_i raised checked
    intro same
    exact never_rejection i other (checked.trans (congrArg _ (Except.error.inj same)))

/-- A status that is not COMPLETED fits an intent that is not BLOCKED. -/
theorem status_sound {i : HedgeIntent} {status : ObligationStatus} (unheld : i.status ≠ .blocked)
    (unfinished : status ≠ .completed) :
    ({ i.toIntentFields with status } : IntentFields).Sound := by
  have old := i.sound
  refine ⟨old.ticket, old.ticketPositive, old.quantityPositive, old.filledNonneg, old.indexBound,
    old.legFilledNonneg, old.orderIds, fun attempt archived => ?_, old.unplanned, fun planned => ?_⟩
  · have kept := old.attempt attempt archived
    exact ⟨kept.planned, kept.retained, kept.legBound, kept.position, kept.past, kept.released,
      kept.history, kept.current⟩
  · have plan := old.planned planned
    exact ⟨plan.sides, plan.quantity, plan.done, fun last _ => plan.progress last unheld,
      fun _ => plan.filled unheld, fun completed => absurd completed unfinished⟩

theorem Laid.bound_sound {i : HedgeIntent} (h : Laid i) {order : String}
    (pending : i.status = .pending) (unbound : i.hedgeClientOrderId = none)
    (nonempty : order ≠ "") (fresh : order ∉ i.hedgeOrderIds) :
    ({ i.toIntentFields with
      hedgeClientOrderId := some order
      hedgeOrderIds := i.hedgeOrderIds ++ [order]
      status := .submitting } : IntentFields).Sound := by
  have old := i.sound
  have unheld : i.status ≠ .blocked := by rw [pending]; nofun
  have begun : i.hedgeLegOrderIds.length = i.hedgeLegIndex := by
    simpa [unbound] using h.counted
  refine ⟨old.ticket, old.ticketPositive, old.quantityPositive, old.filledNonneg, old.indexBound,
    old.legFilledNonneg, ⟨?_, ?_⟩, fun attempt archived => ?_, old.unplanned, fun planned => ?_⟩
  · simpa [nonempty.symm] using old.orderIds.1
  · rw [List.nodup_append]
    refine ⟨old.orderIds.2, List.nodup_singleton order, ?_⟩
    rintro known member other only
    rw [List.mem_singleton] at only
    subst only
    rintro rfl
    exact fresh member
  · have kept := old.attempt attempt archived
    have orders := hedgeLegOrderIds_bound (i := i) (j := { i.toIntentFields with
      hedgeClientOrderId := some order
      hedgeOrderIds := i.hedgeOrderIds ++ [order]
      status := .submitting }) fresh rfl rfl
    refine ⟨kept.planned, List.mem_append_left _ kept.retained, kept.legBound,
      (List.idxOf_append_of_mem kept.retained).trans kept.position, kept.past, ?_, ?_, ?_⟩
    · intro same
      obtain rfl := Option.some.inj same
      exact fresh kept.retained
    · rw [orders, List.length_append, begun]; rfl
    · intro _
      refine ⟨fun last => ?_, ?_⟩
      · obtain ⟨-, done | held⟩ := h.finished kept.planned last
        · rw [pending] at done; cases done
        · exact unheld held
      · rw [orders]
        simp [← begun]
  · have plan := old.planned planned
    exact ⟨plan.sides, plan.quantity, plan.done, fun last _ => plan.progress last unheld,
      fun _ => plan.filled unheld, nofun⟩

theorem planned_sound {i : HedgeIntent} {plan : List HedgeLeg} (unplanned : i.hedgePlan = [])
    (checked : StoreState.checkBinding i plan = .ok ()) :
    ({ i.toIntentFields with
      hedgePlan := plan
      hedgeLegIndex := 0
      hedgeLegFilledOunces := 0 } : IntentFields).Sound := by
  simp only [StoreState.checkBinding, bind_unit_eq_ok, raiseIf_eq_ok, not_or, not_not, not_exists,
    not_and] at checked
  obtain ⟨⟨pending, unbound, unfilled⟩, nonempty, sides, quantity⟩ := checked
  have old := i.sound
  refine ⟨old.ticket, old.ticketPositive, old.quantityPositive, old.filledNonneg, Nat.zero_le _,
    le_refl _, old.orderIds, fun attempt archived => absurd unplanned
      (old.attempt attempt archived).planned, fun empty => absurd empty nonempty, fun _ => ?_⟩
  refine ⟨sides, ?_, fun _ => rfl, fun _ _ leg _ => leg.quantity_pos, fun _ => ?_, fun done => ?_⟩
  · rw [quantity, unfilled, sub_zero]
  · simpa [planQuantity] using unfilled
  · have pending' : i.status = .completed := done
    rw [pending] at pending'
    cases pending'

/-- The statuses a strategy reports of a hedge order. -/
def ObligationStatus.Reported (status : ObligationStatus) : Prop :=
  status = .submitted ∨ status = .accepted ∨ status = .rejected ∨ status = .unknown

instance (status : ObligationStatus) : Decidable status.Reported :=
  inferInstanceAs (Decidable (_ ∨ _))

/-- The store's calls in a hedge run. -/
def StoreOp.Hedging : StoreOp → Prop
  | .recoverForStart | .bindHedgeOrder _ _ | .bindHedgePlan _ _ | .blockHedgeIntent _ _
  | .applyHedgeFill _ => True
  | .updateHedgeStatus _ status _ => status.Reported
  | _ => False

theorem mapIntents_total {f : HedgeIntent → Except Raised HedgeIntent} {intents : List HedgeIntent}
    (total : ∀ intent ∈ intents, ∃ replaced, f intent = .ok replaced) (s : StoreState) :
    ∃ t, StoreState.mapIntents f s intents = .ok t := by
  induction intents generalizing s with
  | nil => exact ⟨s, rfl⟩
  | cons intent rest ih =>
    obtain ⟨replaced, made⟩ := total intent (by simp)
    obtain ⟨t, mapped⟩ := ih (fun later member => total later (by simp [member]))
      (s.setIntent intent.intentId replaced)
    refine ⟨t, ?_⟩
    rw [← mapped]
    simp only [StoreState.mapIntents, List.foldlM_cons, made]
    rfl

theorem recoverForStart_raises {s : StoreState} {e : Raised}
    (h : s.recoverForStart = .raises e) : ∃ key, e = .keyError key := by
  have total : ∀ u : StoreState, ∃ t, StoreState.mapIntents StoreState.markUnknown u
      ((s.hedgeIntents.values.filter (·.status ≠ .completed)).filter
        (·.status ∈ StoreState.inFlight)) = .ok t := by
    refine mapIntents_total fun intent member => ?_
    have open' : intent.status ∈ StoreState.inFlight := by
      simpa using (List.mem_filter.1 member).2
    have unheld : intent.status ≠ .blocked := by
      intro held
      rw [held] at open'
      exact absurd open' (by decide)
    obtain ⟨made, result, -⟩ := (@status_sound _ .unknown unheld nofun).make
    exact ⟨made, result⟩
  unfold StoreState.recoverForStart at h
  dsimp only at h
  split at h
  · cases h
  · split at h
    · obtain ⟨t, mapped⟩ := total s
      rw [mapped] at h
      cases h
    · split at h
      · exact ⟨_, (Change.raises.inj h).symm⟩
      · rename_i active _ _ current found
        obtain ⟨t, mapped⟩ := total { s with
          sourceOrders := s.sourceOrders.set active { current with status := "UNKNOWN" } }
        rw [mapped] at h
        cases h

theorem discard_raises {σ α : Type} {c : Change σ α} {e : Raised} :
    c.discard = .raises e ↔ c = .raises e := by
  cases c <;> simp [Change.discard]

/-- A refused plan is refused in the store's own words. -/
theorem never_checkBinding {text : String} (member : text ∈ IntentFields.rejections)
    (intent : HedgeIntent) (plan : List HedgeLeg) :
    Never (.valueError text) (StoreState.checkBinding intent plan) := by
  unfold StoreState.checkBinding
  refine never_bind (never_raiseIf ?_) fun _ => never_bind (never_raiseIf ?_) fun _ =>
    never_bind (never_raiseIf ?_) fun _ => never_raiseIf ?_ <;>
    revert text <;> decide +kernel

theorem applyHedgeFill_raises {s : StoreState} {fill : HedgeFill} {e : Raised}
    (h : s.applyHedgeFill fill = .raises e) :
    e = .valueError "hedge fill quantity must be positive" := by
  unfold StoreState.applyHedgeFill at h
  split at h
  · cases h
  · rename_i known
    push Not at known
    obtain ⟨unseen, listed⟩ := known
    obtain ⟨intent, lookup⟩ := Option.ne_none_iff_exists'.1 listed
    by_cases archived : isRejectedAttempt intent fill.clientOrderId
    · obtain ⟨t, changed, held, -⟩ :=
        s.holdRejectedAttempt_total intent fill.clientOrderId "late fill"
      have applied : s.applyFill fill none = .ok (t, changed) := by
        simp [StoreState.applyFill, unseen, lookup, archived, held]
      rw [applied] at h
      dsimp only at h
      split at h <;> cases h
    · by_cases positive : 0 < fill.fillOunces
      · obtain ⟨advanced, -, applied⟩ := applyHedgeFill_current unseen positive lookup archived
        unfold StoreState.applyHedgeFill at applied
        rw [if_neg (by simp [unseen, lookup]), h] at applied
        cases applied
      · have refused : s.applyFill fill none =
            .error (.valueError "hedge fill quantity must be positive") := by
          simp only [StoreState.applyFill, unseen, lookup, archived, if_false]
          simp [raiseIf, not_lt.1 positive, bind, Except.bind]
        rw [refused] at h
        exact (Change.raises.inj h).symm

/-- The constructor rejects none of the records a hedge call makes. -/
theorem hedging_accepts {digest : String → String} {s : StoreState} {op : StoreOp}
    (hedging : op.Hedging) (laid : Every Laid s) {e : Raised}
    (raises : op.change digest s = .raises e) (i : IntentFields) : i.make ≠ .error e := by
  revert i
  refine make_ne_of_foreign fun text member => ?_
  cases op with
  | recoverForStart =>
    obtain ⟨key, rfl⟩ := recoverForStart_raises (discard_raises.1 raises)
    nofun
  | bindHedgeOrder intentId order =>
    simp only [StoreOp.change, StoreState.bindHedgeOrder] at raises
    split at raises
    · cases raises; nofun
    · rename_i intent found
      split at raises
      · cases raises
        revert text
        decide +kernel
      · rename_i free
        push Not at free
        obtain ⟨pending, unbound, nonempty, fresh⟩ := free
        have apart := (fresh intent ((Dict.mem_values_iff _ _).2 ⟨_, found⟩)).2
        obtain ⟨made, result, -⟩ :=
          ((laid _ intent found).bound_sound pending unbound nonempty apart).make
        rw [result] at raises
        cases raises
  | bindHedgePlan intentId plan =>
    have inner : s.bindHedgePlan intentId plan = .raises e := discard_raises.1 raises
    unfold StoreState.bindHedgePlan at inner
    split at inner
    · cases inner; nofun
    · rename_i intent found
      split at inner
      · split at inner
        · cases inner
          revert text
          decide +kernel
        · cases inner
      · rename_i unplanned
        split at inner
        · rename_i refused
          cases inner
          rintro rfl
          exact never_checkBinding member intent plan refused
        · rename_i checked
          obtain ⟨made, result, -⟩ := (planned_sound (not_not.1 unplanned) checked).make
          rw [result] at inner
          cases inner
  | blockHedgeIntent intentId reason =>
    simp only [StoreOp.change, StoreState.blockHedgeIntent] at raises
    split at raises
    · cases raises; nofun
    · rename_i intent found
      split at raises
      · cases raises
        revert text
        decide +kernel
      · split at raises
        · cases raises
          revert text
          decide +kernel
        · obtain ⟨made, result, -⟩ := (StoreState.blocked_sound intent).make
          rw [result] at raises
          cases raises
  | updateHedgeStatus order status nativeStatus =>
    simp only [StoreOp.change, StoreState.updateHedgeStatus] at raises
    split at raises
    · cases raises
    · rename_i intent found
      split at raises
      · split at raises
        · obtain ⟨t, changed, held, -⟩ := s.holdRejectedAttempt_total intent order "terminal status"
          rw [held] at raises
          dsimp only at raises
          split at raises <;> cases raises
        · cases raises
      · split at raises
        · cases raises
        · rename_i resolved
          have unheld : intent.status ≠ .blocked := fun held => resolved (.inl held)
          have unfinished : status ≠ .completed := by
            rintro rfl
            simp [StoreOp.Hedging, ObligationStatus.Reported] at hedging
          obtain ⟨made, result, -⟩ := (status_sound unheld unfinished).make
          rw [result] at raises
          cases raises
  | applyHedgeFill fill =>
    rw [applyHedgeFill_raises (discard_raises.1 raises)]
    revert text
    decide +kernel
  | _ => exact hedging.elim

end ArbNautilus.Store
