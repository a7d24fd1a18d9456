import ArbNautilus.Store.Custody

namespace ArbNautilus.Store

open Base

/-- A record's ticket comes with its quantity. -/
def Ticketed (record : SourceOrderRecord) : Prop :=
  (record.hedgePositionId = none → record.hedgePositionQuantityOunces = none) ∧
    ∀ quantity ∈ record.hedgePositionQuantityOunces, 0 < quantity

/-- What a change other than a new order or a source fill leaves of both kinds of custody. -/
structure Retains (s t : StoreState) : Prop where
  records : ∀ order record', t.sourceOrders.get? order = some record' →
    ∃ record, s.sourceOrders.get? order = some record ∧ (Ticketed record → Ticketed record')
  intents : ∀ k intent', t.hedgeIntents.get? k = some intent' →
    ∃ intent, s.hedgeIntents.get? k = some intent ∧ intent'.fillKey = intent.fillKey
  seen : s.seenSourceFills ⊆ t.seenSourceFills

namespace Retains

theorem of_same {s t : StoreState} (orders : t.sourceOrders = s.sourceOrders)
    (intents : t.hedgeIntents = s.hedgeIntents) (seen : t.seenSourceFills = s.seenSourceFills) :
    Retains s t := by
  refine ⟨fun order record found => ⟨record, by rwa [← orders], id⟩,
    fun k intent found => ⟨intent, by rwa [← intents], rfl⟩, ?_⟩
  rw [seen]

theorem trans {s t u : StoreState} (first : Retains s t) (second : Retains t u) : Retains s u := by
  refine ⟨fun order record found => ?_, fun k intent found => ?_, first.seen.trans second.seen⟩
  · obtain ⟨mid, there, after⟩ := second.records order record found
    obtain ⟨old, here, before⟩ := first.records order mid there
    exact ⟨old, here, after ∘ before⟩
  · obtain ⟨mid, there, after⟩ := second.intents k intent found
    obtain ⟨old, here, before⟩ := first.intents k mid there
    exact ⟨old, here, after.trans before⟩

theorem of_quiet {s t : StoreState} (quiet : Quiet s t) : Retains s t := by
  refine ⟨fun order record found => ?_, fun k intent found => ?_, ?_⟩
  · obtain ⟨old, was, facts⟩ := Dict.get?_of_image quiet.orders found
    obtain ⟨-, -, ticket, quantity⟩ := recordFacts_eq facts
    refine ⟨old, was, fun ticketed => ?_⟩
    unfold Ticketed
    rw [← ticket, ← quantity]
    exact ticketed
  · obtain ⟨old, was, facts⟩ := Dict.get?_of_image quiet.intents found
    exact ⟨old, was, (intentFacts_eq facts).1.symm⟩
  · rw [quiet.seenSource]

/-- One stored intent replaced by another of the same fill. -/
theorem of_replaced {s t : StoreState} {k : String} {intent replaced : HedgeIntent}
    (found : s.hedgeIntents.get? k = some intent) (key : replaced.fillKey = intent.fillKey)
    (intents : t.hedgeIntents = s.hedgeIntents.set k replaced)
    (orders : t.sourceOrders = s.sourceOrders) (seen : t.seenSourceFills = s.seenSourceFills) :
    Retains s t := by
  refine ⟨fun order record there => ⟨record, by rwa [← orders], id⟩, fun k' other there => ?_, ?_⟩
  · rw [intents, Dict.get?_set] at there
    split at there
    · rename_i same
      obtain rfl := Option.some.inj there
      exact ⟨intent, same ▸ found, key⟩
    · exact ⟨other, there, rfl⟩
  · rw [seen]

end Retains

theorem applyFill_retains {s t : StoreState} {fill : HedgeFill} {blockedReason : Option String}
    {changed : Bool} (index : OrderIndex s.hedgeIntents)
    (h : s.applyFill fill blockedReason = .ok (t, changed)) : Retains s t := by
  obtain ⟨rfl, -⟩ | ⟨intent, blocked, -, found, -, fields, rfl⟩ |
    ⟨intent, advanced, -, found, -, positive, fields, -, rfl⟩ := StoreState.applyFill_eq_ok h
  · exact .of_same rfl rfl rfl
  · obtain ⟨-, k, stored⟩ := StoreState.intentForHedgeOrder_eq_some found
    exact .of_replaced stored (by rw [fields]) (by rw [← index.keyed k intent stored]; rfl) rfl rfl
  · obtain ⟨-, k, stored⟩ := StoreState.intentForHedgeOrder_eq_some found
    have advance := StoreState.advanceFields_advance intent positive s.haltReason blockedReason
    have key := (fields ▸ advance).frame.2.1
    exact .of_replaced stored key (by rw [← index.keyed k intent stored]; rfl) rfl rfl

theorem archiveRejected_fillKey {target : Option String} {intent replaced : HedgeIntent}
    (h : StoreState.archiveRejected target intent = .ok replaced) :
    replaced.fillKey = intent.fillKey := by
  unfold StoreState.archiveRejected at h
  split at h
  · cases h
    rfl
  · split at h
    · rw [bind_unit_eq_ok] at h
      obtain ⟨-, h⟩ := h
      dsimp only at h
      split at h
      · rw [IntentFields.make_eq_ok h]
      · cases h
    · cases h
      rfl

theorem settleIntent_fillKey {target : Option String} {intent replaced : HedgeIntent}
    (h : StoreState.settleIntent target intent = .ok replaced) :
    replaced.fillKey = intent.fillKey := by
  simp only [StoreState.settleIntent, bind_eq_ok] at h
  obtain ⟨archived, step, h⟩ := h
  rw [← archiveRejected_fillKey step]
  split at h <;> rw [IntentFields.make_eq_ok h]

/-- The statuses a settlement writes leave the tickets alone. -/
theorem settleStatuses_ticketed (native : String → String) (keys : List String)
    (orders : Dict String SourceOrderRecord) {order : String} {record' : SourceOrderRecord}
    (found : (keys.foldl (fun orders key => match orders.get? key with
      | none => orders
      | some record => orders.set key { record with status := native key }) orders).get? order =
        some record') :
    ∃ record, orders.get? order = some record ∧ (Ticketed record → Ticketed record') := by
  induction keys generalizing orders with
  | nil => exact ⟨record', found, id⟩
  | cons key keys ih =>
    rw [List.foldl_cons] at found
    obtain ⟨mid, there, after⟩ := ih _ found
    split at there
    · exact ⟨mid, there, after⟩
    · rename_i record here
      rw [Dict.get?_set] at there
      split at there
      · rename_i same
        obtain rfl := Option.some.inj there
        exact ⟨record, same ▸ here, after⟩
      · exact ⟨mid, there, after⟩

/-- A change that is neither a new order nor a source fill. -/
theorem change_retains {digest : String → String} {s t : StoreState} {op : StoreOp}
    (index : OrderIndex s.hedgeIntents) (h : (op.change digest s).Yields t)
    (other : match op with
      | .beginSource _ | .reserveSourceFill _ | .projectSourceFills _ _ => False
      | _ => True) : Retains s t := by
  cases op with
  | beginSource | reserveSourceFill | projectSourceFills => exact other.elim
  | bindHedgeOrder intentId clientOrderId =>
    obtain ⟨intent, bound, found, -, -, -, -, fields, rfl⟩ := StoreState.bindHedgeOrder_yields h
    exact .of_replaced found (by rw [fields]) rfl rfl rfl
  | applyHedgeFill =>
    rw [StoreOp.change, Change.discard_yields] at h
    exact applyFill_retains index (StoreState.applyHedgeFill_yields h).2
  | projectHedgeFills reason fills =>
    simp only [StoreOp.change, StoreState.projectHedgeFills] at h
    split at h
    · simp at h
    · rename_i applied
      rw [Change.yields_reserves] at h
      subst h
      have held : Retains s (s.hold reason) := .of_same rfl rfl rfl
      refine (foldlM_invariant (P := fun u => OrderIndex u.hedgeIntents ∧ Retains s u)
        (fun u fill v kept turn => ?_) ⟨index, held⟩ applied).2
      obtain ⟨⟨v', changed⟩, added, rfl⟩ := map_eq_ok.1 turn
      exact ⟨applyFill_index kept.1 added, kept.2.trans (applyFill_retains kept.1 added)⟩
  | settleCompleted target native =>
    simp only [StoreOp.change, StoreState.settleCompleted] at h
    split at h
    · simp at h
    · rename_i u settled
      rw [Change.yields_reserves] at h
      subst h
      have kept : Retains s u := mapIntents_of_keyed (P := Retains s)
        (fun v intent replaced _ kept found made =>
          kept.trans (.of_replaced found (settleIntent_fillKey made) rfl rfl rfl))
        index.keyed (.of_same rfl rfl rfl) (List.Sublist.refl _) settled
      refine ⟨fun order record' found => ?_, kept.intents, kept.seen⟩
      exact settleStatuses_ticketed native _ _ found
  | _ => exact .of_quiet (change_quiet (by exact trivial) index h)

/-- What every reachable store keeps of its records and of the intents they opened. -/
structure Opened (digest : String → String) (s : StoreState) : Prop where
  index : OrderIndex s.hedgeIntents
  tickets : ∀ order record, s.sourceOrders.get? order = some record → Ticketed record
  intents : ∀ k intent, s.hedgeIntents.get? k = some intent →
    k = "hedge-" ++ digest intent.fillKey ∧ intent.fillKey ∈ s.seenSourceFills

theorem Opened.carry {digest : String → String} {s t : StoreState} (h : Opened digest s)
    (index : OrderIndex t.hedgeIntents) (retains : Retains s t) : Opened digest t := by
  refine ⟨index, fun order record found => ?_, fun k intent found => ?_⟩
  · obtain ⟨old, was, ticketed⟩ := retains.records order record found
    exact ticketed (h.tickets order old was)
  · obtain ⟨old, was, key⟩ := retains.intents k intent found
    rw [key]
    obtain ⟨named, seen⟩ := h.intents k old was
    exact ⟨named, retains.seen seen⟩

theorem applySourceFill_opened {digest : String → String} {s t : StoreState} {fill : SourceFill}
    {blockedReason : Option String} {opened : Option HedgeIntent} (h : Opened digest s)
    (applied : s.applySourceFill digest fill blockedReason = .ok (t, opened)) :
    Opened digest t := by
  have index := applySourceFill_index h.index applied
  unfold StoreState.applySourceFill at applied
  split at applied
  · cases applied
    exact h
  · split at applied
    · cases applied
      exact h
    · rename_i record found
      simp only [bind_eq_ok] at applied
      obtain ⟨recorded, recording, applied⟩ := applied
      obtain ⟨-, -, ⟨status, orders⟩, seen, -, intents, -⟩ :=
        StoreState.recordSourceFill_eq_ok recording
      have tickets : ∀ order record', recorded.sourceOrders.get? order = some record' →
          Ticketed record' := by
        intro order record' there
        rw [orders, Dict.get?_set] at there
        split at there
        · obtain rfl := Option.some.inj there
          exact h.tickets _ record found
        · exact h.tickets order record' there
      have old : ∀ k intent, recorded.hedgeIntents.get? k = some intent →
          k = "hedge-" ++ digest intent.fillKey ∧ intent.fillKey ∈ recorded.seenSourceFills := by
        intro k intent there
        rw [intents] at there
        obtain ⟨named, member⟩ := h.intents k intent there
        exact ⟨named, by rw [seen]; exact Finset.mem_insert_of_mem member⟩
      obtain ⟨-, rfl, -⟩ | ⟨-, intent, fields, -, rfl⟩ := StoreState.openHedgeIntent_eq_ok applied
      · exact ⟨index, tickets, old⟩
      · refine ⟨index, tickets, fun k other there => ?_⟩
        change (recorded.hedgeIntents.set intent.intentId intent).get? k = some other at there
        rw [Dict.get?_set] at there
        split at there
        · rename_i same
          obtain rfl := Option.some.inj there
          rw [← same, fields]
          refine ⟨rfl, ?_⟩
          show fill.fillKey ∈ recorded.seenSourceFills
          rw [seen]
          exact Finset.mem_insert_self _ _
        · exact old k other there

theorem change_opened {digest : String → String} {s t : StoreState} {op : StoreOp}
    (h : Opened digest s) (yields : (op.change digest s).Yields t) : Opened digest t := by
  have index := change_index h.index yields
  cases op with
  | beginSource request =>
    simp only [StoreOp.change, StoreState.beginSource] at yields
    split at yields
    · simp at yields
    · rename_i checked
      rw [Change.yields_publishes] at yields
      subst yields
      simp only [StoreState.checkRequest, bind_unit_eq_ok, raiseIf_eq_ok] at checked
      obtain ⟨-, -, -, paired, -, positive⟩ := checked
      refine ⟨index, fun order record found => ?_, h.intents⟩
      change (s.sourceOrders.set request.clientOrderId request.record).get? order =
        some record at found
      rw [Dict.get?_set] at found
      split at found
      · obtain rfl := Option.some.inj found
        refine ⟨fun absent => ?_, by simpa [SourceRequest.record] using positive⟩
        have absent : request.hedgePositionId = none := absent
        have none : request.hedgePositionQuantityOunces = none := by simpa [absent] using paired
        exact none
      · exact h.tickets order record found
  | reserveSourceFill fill =>
    simp only [StoreOp.change, Change.discard_yields, StoreState.reserveSourceFill] at yields
    split at yields
    · simp at yields
    · split at yields
      · simp at yields
      · rename_i applied
        rw [Change.yields_reserves] at yields
        exact yields ▸ applySourceFill_opened h applied
  | projectSourceFills reason fills =>
    simp only [StoreOp.change, StoreState.projectSourceFills] at yields
    split at yields
    · simp at yields
    · rename_i applied
      rw [Change.yields_reserves] at yields
      subst yields
      refine foldlM_invariant (P := Opened digest) (fun u fill v kept turn => ?_)
        (show Opened digest (s.hold reason) from ⟨h.index, h.tickets, h.intents⟩) applied
      obtain ⟨⟨v', opened⟩, added, rfl⟩ := map_eq_ok.1 turn
      exact applySourceFill_opened kept added
  | _ => exact h.carry index (change_retains h.index yields trivial)

theorem reachable_opened {digest : String → String} {store : JsonStateStore}
    (h : Reachable digest store) : Opened digest store.memory :=
  (h.invariant (P := Opened digest) ⟨.empty, by simp [StoreState.emptyState],
    by simp [StoreState.emptyState]⟩ fun _ _ _ kept yields => change_opened kept yields).1

end ArbNautilus.Store
