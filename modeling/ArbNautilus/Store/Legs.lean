import ArbNautilus.Store.LateFill

namespace ArbNautilus.Store

open Base

/-- One order for each leg begun. The last of them is current until its fill. -/
structure Laid (i : HedgeIntent) : Prop where
  counted : i.hedgeLegOrderIds.length = i.hedgeLegIndex + i.hedgeClientOrderId.toList.length
  current : ∀ order, i.hedgeClientOrderId = some order →
    i.hedgeLegOrderIds[i.hedgeLegIndex]? = some order
  finished : i.hedgePlan ≠ [] → i.hedgeLegIndex = i.hedgePlan.length →
    i.hedgeClientOrderId = none ∧ (i.status = .completed ∨ i.status = .blocked)
  whole : i.status ≠ .blocked → i.hedgeLegFilledOunces = 0

/-- An intent as a source fill opens it. -/
structure Blank (i : HedgeIntent) : Prop where
  unplanned : i.hedgePlan = []
  unbound : i.hedgeClientOrderId = none
  orders : i.hedgeOrderIds = []
  archived : i.rejectedAttempt = none

/-- The replacements that the store makes of an intent, one for each `replace` of the source. -/
inductive Edit (i : HedgeIntent) : IntentFields → Prop where
  | bound (order : String) (pending : i.status = .pending) (unbound : i.hedgeClientOrderId = none)
      (fresh : order ∉ i.hedgeOrderIds) :
      Edit i { i.toIntentFields with
        hedgeClientOrderId := some order
        hedgeOrderIds := i.hedgeOrderIds ++ [order]
        status := .submitting }
  | planned (plan : List HedgeLeg) (unplanned : i.hedgePlan = [])
      (unbound : i.hedgeClientOrderId = none) (nonempty : plan ≠ []) :
      Edit i { i.toIntentFields with
        hedgePlan := plan
        hedgeLegIndex := 0
        hedgeLegFilledOunces := 0 }
  | blocked : Edit i { i.toIntentFields with status := .blocked }
  | reported (status : ObligationStatus) (bound : i.hedgeClientOrderId ≠ none)
      (resolved : ¬i.status.Unresolved) : Edit i { i.toIntentFields with status }
  | unknown (open' : i.status ∈ StoreState.inFlight) :
      Edit i { i.toIntentFields with status := .unknown }
  | filled {fill : HedgeFill} {after : IntentFields}
      (bound : i.hedgeClientOrderId = some fill.clientOrderId)
      (advance : StoreState.Advance i fill after) : Edit i after
  | archived (attempt : RejectedHedgeAttempt) (planned : i.hedgePlan ≠ [])
      (bound : i.hedgeClientOrderId ≠ none) (unfilled : i.hedgeLegFilledOunces = 0) :
      Edit i { i.toIntentFields with
        rejectedAttempt := some attempt
        hedgeClientOrderId := none
        status := .pending }
  | settled (planned : i.hedgePlan ≠ []) :
      Edit i { i.toIntentFields with
        status := if i.hedgeFilledOunces = i.hedgeQuantityOunces then .completed else .pending
        hedgeClientOrderId := none
        hedgeLegIndex := i.hedgeLegOrderIds.length
        hedgeLegFilledOunces := 0 }
  | settledWhole (unplanned : i.hedgePlan = []) :
      Edit i { i.toIntentFields with
        status := if i.hedgeFilledOunces = i.hedgeQuantityOunces then .completed else .pending }

/-- Every stored intent has the property. -/
def Every (P : HedgeIntent → Prop) (s : StoreState) : Prop :=
  ∀ k intent, s.hedgeIntents.get? k = some intent → P intent

section Edits

variable {P : HedgeIntent → Prop} {s t : StoreState} {digest : String → String}

theorem Every.empty : Every P .emptyState := by
  intro k intent found
  simp [StoreState.emptyState] at found

theorem Every.of_same (h : Every P s) (same : t.hedgeIntents = s.hedgeIntents) : Every P t := by
  intro k intent found
  rw [same] at found
  exact h k intent found

theorem Every.set (h : Every P s) {k : String} {replaced : HedgeIntent} (holds : P replaced)
    (same : t.hedgeIntents = s.hedgeIntents.set k replaced) : Every P t := by
  intro k' intent found
  rw [same, Dict.get?_set] at found
  split at found
  · exact Option.some.inj found ▸ holds
  · exact h k' intent found

variable (blank : ∀ i, Blank i → P i)
  (edit : ∀ i j : HedgeIntent, Edit i j.toIntentFields → P i → P j)

include blank in
theorem applySourceFill_every {fill : SourceFill} {blockedReason : Option String}
    {opened : Option HedgeIntent} (h : Every P s)
    (applied : s.applySourceFill digest fill blockedReason = .ok (t, opened)) : Every P t := by
  unfold StoreState.applySourceFill at applied
  split at applied
  · cases applied; exact h
  · split at applied
    · cases applied; exact h
    · simp only [bind_eq_ok] at applied
      obtain ⟨recorded, record, applied⟩ := applied
      obtain ⟨-, -, -, -, -, intents, -⟩ := StoreState.recordSourceFill_eq_ok record
      obtain ⟨-, rfl, -⟩ | ⟨-, intent, fields, -, rfl⟩ := StoreState.openHedgeIntent_eq_ok applied
      · exact h.of_same intents
      · have fresh : Blank intent := ⟨by rw [fields]; rfl, by rw [fields]; rfl,
          by rw [fields]; rfl, by rw [fields]; rfl⟩
        exact (h.of_same intents).set (blank intent fresh) rfl

include edit

theorem applyFill_every {fill : HedgeFill} {blockedReason : Option String} {changed : Bool}
    (h : Every P s) (applied : s.applyFill fill blockedReason = .ok (t, changed)) :
    Every P t := by
  obtain ⟨rfl, -⟩ | ⟨intent, blocked, -, found, -, fields, rfl⟩ |
    ⟨intent, advanced, -, found, current, positive, fields, -, rfl⟩ :=
    StoreState.applyFill_eq_ok applied
  · exact h
  · obtain ⟨-, k, stored⟩ := StoreState.intentForHedgeOrder_eq_some found
    exact h.set (edit intent blocked (fields ▸ .blocked) (h k intent stored)) rfl
  · obtain ⟨bound, k, stored⟩ := StoreState.intentForHedgeOrder_eq_some found
    have advance := StoreState.advanceFields_advance intent positive s.haltReason blockedReason
    exact h.set (edit intent advanced (fields ▸ .filled (bound.resolve_right current) advance)
      (h k intent stored)) rfl

theorem archiveRejected_every {target : Option String} {intent replaced : HedgeIntent}
    (holds : P intent) (h : StoreState.archiveRejected target intent = .ok replaced) :
    P replaced := by
  unfold StoreState.archiveRejected at h
  split at h
  · simp only [Except.ok.injEq] at h
    exact h ▸ holds
  · split at h
    · rw [bind_unit_eq_ok, raiseIf_eq_ok] at h
      obtain ⟨qualified, h⟩ := h
      push Not at qualified
      obtain ⟨planned, bound, unfilled⟩ := qualified
      dsimp only at h
      split at h
      · exact edit intent replaced
          (IntentFields.make_eq_ok h ▸ .archived _ planned (bound ▸ Option.some_ne_none _) unfilled)
          holds
      · simp at h
    · simp only [Except.ok.injEq] at h
      exact h ▸ holds

theorem settleIntent_every {target : Option String} {intent replaced : HedgeIntent}
    (holds : P intent) (h : StoreState.settleIntent target intent = .ok replaced) :
    P replaced := by
  simp only [StoreState.settleIntent, bind_eq_ok] at h
  obtain ⟨archived, step, h⟩ := h
  have before := archiveRejected_every edit holds step
  split at h
  · rename_i planned
    exact edit archived replaced (IntentFields.make_eq_ok h ▸ .settled planned) before
  · rename_i unplanned
    exact edit archived replaced
      (IntentFields.make_eq_ok h ▸ .settledWhole (not_not.1 unplanned)) before

theorem recoverForStart_every
    (keyed : ∀ k intent, s.hedgeIntents.get? k = some intent → intent.intentId = k)
    (h : Every P s) (recovered : s.recoverForStart.Yields t) : Every P t := by
  obtain ⟨orders, v, halt, -, mapped, rfl⟩ := StoreState.recoverForStart_yields recovered
  have kept : Every P v := by
    refine mapIntents_of_keyed (P := Every P) (s := { s with sourceOrders := orders })
      (fun u intent replaced member every found made => ?_) keyed h
      (List.filter_sublist.trans List.filter_sublist) mapped
    have open' : intent.status ∈ StoreState.inFlight := by
      simpa using (List.mem_filter.1 member).2
    exact every.set (edit intent replaced (IntentFields.make_eq_ok made ▸ .unknown open')
      (every _ intent found)) rfl
  exact kept

include blank

/-- Whatever each replacement keeps, every call keeps. -/
theorem change_every {op : StoreOp} (index : OrderIndex s.hedgeIntents) (h : Every P s)
    (yields : (op.change digest s).Yields t) : Every P t := by
  cases op with
  | freezeSourceSubmissions =>
    simp only [StoreOp.change, StoreState.freezeSourceSubmissions] at yields
    split_ifs at yields <;> simp at yields
    exact h.of_same (by rw [← yields])
  | clearSourceFreeze =>
    simp only [StoreOp.change, StoreState.clearSourceFreeze] at yields
    split_ifs at yields <;> simp at yields
    exact h.of_same (by rw [← yields])
  | recoverForStart =>
    exact recoverForStart_every edit index.keyed h (by simpa [StoreOp.change] using yields)
  | beginSource =>
    simp only [StoreOp.change, StoreState.beginSource] at yields
    split at yields <;> simp at yields
    exact h.of_same (by rw [← yields])
  | updateSourceStatus =>
    simp only [StoreOp.change, StoreState.updateSourceStatus] at yields
    split at yields <;> simp at yields
    exact h.of_same (by rw [← yields])
  | confirmSourceReconciled =>
    simp only [StoreOp.change, StoreState.confirmSourceReconciled] at yields
    split at yields
    · simp at yields
    · split_ifs at yields <;> simp at yields
      exact h.of_same (by rw [← yields]; rfl)
  | markSourceUnknown =>
    simp only [StoreOp.change, StoreState.markSourceUnknown, Change.yields_publishes] at yields
    exact h.of_same (by rw [← yields])
  | reserveSourceFill fill =>
    simp only [StoreOp.change, Change.discard_yields, StoreState.reserveSourceFill] at yields
    split at yields
    · simp at yields
    · split at yields
      · simp at yields
      · rename_i applied
        rw [Change.yields_reserves] at yields
        exact yields ▸ applySourceFill_every blank h applied
  | bindHedgeOrder =>
    obtain ⟨intent, bound, found, pending, unbound, -, fresh, fields, rfl⟩ :=
      StoreState.bindHedgeOrder_yields yields
    have apart := (fresh intent ((Dict.mem_values_iff _ _).2 ⟨_, found⟩)).2
    exact h.set (edit intent bound (fields ▸ .bound _ pending unbound apart)
      (h _ intent found)) rfl
  | bindHedgePlan =>
    rw [StoreOp.change, Change.discard_yields] at yields
    obtain ⟨intent, planned, found, unplanned, -, unbound, -, nonempty, fields, rfl⟩ :=
      StoreState.bindHedgePlan_yields yields
    exact h.set (edit intent planned (fields ▸ .planned _ unplanned unbound nonempty)
      (h _ intent found)) rfl
  | blockHedgeIntent =>
    obtain ⟨intent, blocked, found, -, fields, rfl⟩ := StoreState.blockHedgeIntent_yields yields
    exact h.set (edit intent blocked (fields ▸ .blocked) (h _ intent found)) rfl
  | updateHedgeStatus =>
    obtain ⟨intent, updated, found, intents, -, -, -, -, how⟩ :=
      StoreState.updateHedgeStatus_yields yields
    obtain ⟨bound, k, stored⟩ := StoreState.intentForHedgeOrder_eq_some found
    refine h.set (edit intent updated ?_ (h k intent stored)) intents
    obtain ⟨-, -, fields⟩ | ⟨current, resolved, -, fields⟩ := how
    · exact fields ▸ .blocked
    · exact fields ▸ .reported _ (bound.resolve_right current ▸ Option.some_ne_none _) resolved
  | applyHedgeFill =>
    rw [StoreOp.change, Change.discard_yields] at yields
    exact applyFill_every edit h (StoreState.applyHedgeFill_yields yields).2
  | projectSourceFills reason fills =>
    simp only [StoreOp.change, StoreState.projectSourceFills] at yields
    split at yields
    · simp at yields
    · rename_i applied
      rw [Change.yields_reserves] at yields
      subst yields
      refine foldlM_invariant (P := Every P) (fun u fill v kept turn => ?_)
        (show Every P (s.hold reason) from h.of_same rfl) applied
      obtain ⟨⟨v', opened⟩, added, rfl⟩ := map_eq_ok.1 turn
      exact applySourceFill_every blank kept added
  | projectHedgeFills reason fills =>
    simp only [StoreOp.change, StoreState.projectHedgeFills] at yields
    split at yields
    · simp at yields
    · rename_i applied
      rw [Change.yields_reserves] at yields
      subst yields
      refine foldlM_invariant (P := Every P) (fun u fill v kept turn => ?_)
        (show Every P (s.hold reason) from h.of_same rfl) applied
      obtain ⟨⟨v', changed⟩, added, rfl⟩ := map_eq_ok.1 turn
      exact applyFill_every edit kept added
  | settleCompleted target native =>
    simp only [StoreOp.change, StoreState.settleCompleted] at yields
    split at yields
    · simp at yields
    · rename_i settled
      rw [Change.yields_reserves] at yields
      subst yields
      have kept := mapIntents_of_keyed (P := Every P) (fun u intent replaced _ every found made =>
        every.set (settleIntent_every edit (every _ intent found) made) rfl) index.keyed h
        (List.Sublist.refl _) settled
      exact kept

/-- What a source fill opens and every replacement keeps, every reachable store holds. -/
theorem reachable_every {store : JsonStateStore} (h : Reachable digest store) :
    Every P store.memory ∧ Every P store.file := by
  have kept := h.invariant (P := fun u => OrderIndex u.hedgeIntents ∧ Every P u)
    ⟨.empty, .empty⟩ fun _ _ _ old yields =>
      ⟨change_index old.1 yields, change_every blank edit old.1 old.2 yields⟩
  exact ⟨kept.1.2, kept.2.2⟩

end Edits

theorem hedgeLegOrderIds_of_unarchived {i : IntentFields} (h : i.rejectedAttempt = none) :
    i.hedgeLegOrderIds = i.hedgeOrderIds := by
  simp [IntentFields.hedgeLegOrderIds, h]

/-- The orders of the legs depend on the history and the archived rejection alone. -/
theorem hedgeLegOrderIds_congr {i j : IntentFields}
    (attempt : j.rejectedAttempt = i.rejectedAttempt)
    (orders : j.hedgeOrderIds = i.hedgeOrderIds) : j.hedgeLegOrderIds = i.hedgeLegOrderIds := by
  simp only [IntentFields.hedgeLegOrderIds, attempt, orders]

/-- A new order is the next leg's. -/
theorem hedgeLegOrderIds_bound {i : HedgeIntent} {j : IntentFields} {order : String}
    (fresh : order ∉ i.hedgeOrderIds) (attempt : j.rejectedAttempt = i.rejectedAttempt)
    (orders : j.hedgeOrderIds = i.hedgeOrderIds ++ [order]) :
    j.hedgeLegOrderIds = i.hedgeLegOrderIds ++ [order] := by
  simp only [IntentFields.hedgeLegOrderIds, attempt, orders]
  cases archived : i.rejectedAttempt with
  | none => rfl
  | some rejected =>
    have retained := (i.sound.attempt rejected archived).retained
    have apart : order ≠ rejected.clientOrderId := by
      rintro rfl
      exact fresh retained
    simp [List.filter_append, apart]

theorem hedgeLegOrderIds_sublist (i : IntentFields) :
    i.hedgeLegOrderIds.Sublist i.hedgeOrderIds := by
  unfold IntentFields.hedgeLegOrderIds
  split
  · exact List.Sublist.refl _
  · exact List.filter_sublist

theorem hedgeLegOrderIds_nodup (i : HedgeIntent) : i.hedgeLegOrderIds.Nodup :=
  (hedgeLegOrderIds_sublist _).nodup i.sound.orderIds.2

theorem Blank.laid {i : HedgeIntent} (h : Blank i) : Laid i := by
  obtain ⟨index, filled⟩ := i.sound.unplanned h.unplanned
  refine ⟨?_, fun order bound => ?_, fun planned => absurd h.unplanned planned, fun _ => filled⟩
  · rw [hedgeLegOrderIds_of_unarchived h.archived, h.orders, h.unbound, index]
    rfl
  · rw [h.unbound] at bound
    cases bound

namespace Laid

variable {i : HedgeIntent}

/-- An intent with a current order is not through its plan. -/
theorem unfinished (h : Laid i) (bound : i.hedgeClientOrderId ≠ none)
    (planned : i.hedgePlan ≠ []) : i.hedgeLegIndex ≠ i.hedgePlan.length :=
  fun last => bound (h.finished planned last).1

/-- A new status keeps an intent laid out where it cannot hide a finished plan. -/
theorem status (h : Laid i) {j : HedgeIntent} {status : ObligationStatus}
    (fields : j.toIntentFields = { i.toIntentFields with status })
    (finished : i.hedgePlan ≠ [] → i.hedgeLegIndex = i.hedgePlan.length →
      status = .completed ∨ status = .blocked)
    (whole : status ≠ .blocked → i.hedgeLegFilledOunces = 0) : Laid j := by
  have orders : j.hedgeLegOrderIds = i.hedgeLegOrderIds := by rw [fields]; rfl
  refine ⟨?_, ?_, ?_, ?_⟩
  · rw [orders, fields]; exact h.counted
  · rw [orders, fields]; exact h.current
  · rw [fields]
    exact fun planned last => ⟨(h.finished planned last).1, finished planned last⟩
  · rw [fields]; exact whole

theorem bind (h : Laid i) {j : HedgeIntent} {order : String} (pending : i.status = .pending)
    (unbound : i.hedgeClientOrderId = none) (fresh : order ∉ i.hedgeOrderIds)
    (fields : j.toIntentFields = { i.toIntentFields with
      hedgeClientOrderId := some order
      hedgeOrderIds := i.hedgeOrderIds ++ [order]
      status := .submitting }) : Laid j := by
  have orders : j.hedgeLegOrderIds = i.hedgeLegOrderIds ++ [order] :=
    hedgeLegOrderIds_bound fresh (by rw [fields]) (by rw [fields])
  have begun : i.hedgeLegOrderIds.length = i.hedgeLegIndex := by
    simpa [unbound] using h.counted
  refine ⟨?_, fun other bound => ?_, ?_, ?_⟩
  · rw [orders, fields]
    simp [begun]
  · rw [fields] at bound
    rw [orders, fields]
    simpa [← begun] using bound
  · rw [fields]
    intro planned last
    obtain ⟨-, done | held⟩ := h.finished planned last
    · rw [pending] at done; cases done
    · rw [pending] at held; cases held
  · rw [fields]
    intro _
    exact h.whole (by rw [pending]; nofun)

theorem advance (h : Laid i) {j : HedgeIntent} {fill : HedgeFill}
    (bound : i.hedgeClientOrderId = some fill.clientOrderId)
    (advance : StoreState.Advance i fill j.toIntentFields) : Laid j := by
  have begun : i.hedgeLegOrderIds.length = i.hedgeLegIndex + 1 := by
    simpa [bound] using h.counted
  obtain ⟨-, -, -, -, history, attempt, -⟩ := advance.frame
  have orders : j.hedgeLegOrderIds = i.hedgeLegOrderIds := hedgeLegOrderIds_congr attempt history
  have open' := h.unfinished (bound ▸ Option.some_ne_none _)
  generalize fields : j.toIntentFields = after at advance
  cases advance with
  | held legFilled grows last =>
    refine ⟨?_, ?_, ?_, ?_⟩
    · rw [orders, fields]; exact h.counted
    · rw [orders, fields]; exact h.current
    · rw [fields]; exact fun planned done => absurd done (open' planned)
    · rw [fields]; exact fun unheld => absurd rfl unheld
  | legDone planned resolved leg current whole =>
    refine ⟨?_, ?_, ?_, ?_⟩
    · rw [orders, fields]; exact begun
    · rw [fields]; nofun
    · rw [fields]
      exact fun _ done => ⟨rfl, .inl (if_pos done)⟩
    · rw [fields]; exact fun _ => rfl
  | single unplanned resolved =>
    refine ⟨?_, ?_, ?_, ?_⟩
    · rw [orders, fields]; exact h.counted
    · rw [orders, fields]; exact h.current
    · rw [fields]; exact fun planned => absurd unplanned planned
    · rw [fields]; exact fun _ => (i.sound.unplanned unplanned).2

/-- The constructor keeps the history of an archived rejection. -/
theorem archive {j : HedgeIntent} {attempt : RejectedHedgeAttempt} (h : Laid i)
    (planned : i.hedgePlan ≠ []) (bound : i.hedgeClientOrderId ≠ none)
    (unfilled : i.hedgeLegFilledOunces = 0)
    (fields : j.toIntentFields = { i.toIntentFields with
      rejectedAttempt := some attempt
      hedgeClientOrderId := none
      status := .pending }) : Laid j := by
  have history := (j.sound.attempt attempt (by rw [fields]; rfl)).history
  refine ⟨history, ?_, ?_, ?_⟩
  · rw [fields]; nofun
  · rw [fields]; exact fun _ last => absurd last (h.unfinished bound planned)
  · rw [fields]; exact fun _ => unfilled

theorem settle {j : HedgeIntent} (planned : i.hedgePlan ≠ [])
    (fields : j.toIntentFields = { i.toIntentFields with
      status := if i.hedgeFilledOunces = i.hedgeQuantityOunces then .completed else .pending
      hedgeClientOrderId := none
      hedgeLegIndex := i.hedgeLegOrderIds.length
      hedgeLegFilledOunces := 0 }) : Laid j := by
  have unbound : j.hedgeClientOrderId = none := by rw [fields]
  have settled : j.status =
      if i.hedgeFilledOunces = i.hedgeQuantityOunces then .completed else .pending := by rw [fields]
  have orders : j.hedgeLegOrderIds = i.hedgeLegOrderIds :=
    hedgeLegOrderIds_congr (by rw [fields]) (by rw [fields])
  have unblocked : j.status ≠ .blocked := by
    rw [settled]
    split <;> nofun
  refine ⟨?_, ?_, fun _ last => ⟨unbound, .inl ?_⟩, fun _ => by rw [fields]⟩
  · rw [orders, unbound, fields]; rfl
  · rw [unbound]; nofun
  · have plan := j.sound.planned (by rw [fields]; exact planned)
    have filled := plan.filled unblocked
    rw [plan.done last, last, List.take_length, plan.quantity, zero_add] at filled
    rw [fields] at filled
    rw [settled, if_pos filled]

end Laid

/-- Every replacement keeps an intent laid out. -/
theorem Edit.laid {i j : HedgeIntent} (edit : Edit i j.toIntentFields) (h : Laid i) : Laid j := by
  generalize fields : j.toIntentFields = after at edit
  cases edit with
  | bound order pending unbound fresh => exact h.bind pending unbound fresh fields
  | planned plan unplanned unbound nonempty =>
    obtain ⟨index, filled⟩ := i.sound.unplanned unplanned
    have orders : j.hedgeLegOrderIds = i.hedgeLegOrderIds := by rw [fields]; rfl
    have begun : i.hedgeLegOrderIds.length = 0 := by simpa [unbound, index] using h.counted
    refine ⟨?_, ?_, ?_, ?_⟩
    · rw [orders, fields, begun, unbound]; rfl
    · rw [fields, unbound]; nofun
    · rw [fields]
      exact fun _ last => absurd (List.eq_nil_of_length_eq_zero last.symm) nonempty
    · rw [fields]; exact fun _ => rfl
  | blocked => exact h.status fields (fun _ _ => .inr rfl) fun unheld => absurd rfl unheld
  | reported status bound resolved =>
    exact h.status fields (fun planned last => absurd last (h.unfinished bound planned))
      fun _ => h.whole fun held => resolved (.inl held)
  | unknown open' =>
    refine h.status fields (fun planned last => ?_) fun _ => h.whole fun held => ?_
    · obtain ⟨-, done | held⟩ := h.finished planned last
      · rw [done] at open'; exact absurd open' (by decide)
      · rw [held] at open'; exact absurd open' (by decide)
    · rw [held] at open'; exact absurd open' (by decide)
  | filled bound advance => exact h.advance bound (fields ▸ advance)
  | archived attempt planned bound unfilled => exact h.archive planned bound unfilled fields
  | settled planned => exact Laid.settle planned fields
  | settledWhole unplanned =>
    exact h.status fields (fun planned => absurd unplanned planned)
      fun _ => (i.sound.unplanned unplanned).2

theorem reachable_laid {digest : String → String} {store : JsonStateStore}
    (h : Reachable digest store) : Every Laid store.memory ∧ Every Laid store.file :=
  reachable_every (fun _ => Blank.laid) (fun _ _ => Edit.laid) h

end ArbNautilus.Store
