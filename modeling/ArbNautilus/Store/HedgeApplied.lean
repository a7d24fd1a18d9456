import ArbNautilus.Base.Once
import ArbNautilus.Store.HedgeProjection

namespace ArbNautilus.Store.HedgeProjection

open Base

/-- What a projected fill leaves of an intent. -/
def frame (intent : HedgeIntent) : IntentFields :=
  { intent.toIntentFields with
    hedgeFilledOunces := 0
    hedgeLegFilledOunces := 0
    status := .pending }

/-- The fills of a list that are due to an intent's current order. -/
def owed (fills : List HedgeFill) (intent : HedgeIntent) : List HedgeFill :=
  fills.filter fun fill => intent.hedgeClientOrderId = some fill.clientOrderId

def quantity (fills : List HedgeFill) : ℚ := (fills.map (·.fillOunces)).sum

theorem quantity_append (fills later : List HedgeFill) :
    quantity (fills ++ later) = quantity fills + quantity later := by
  simp [quantity]

/-- An intent after the fills due to it were applied under a HOLD. -/
structure Advanced (fills : List HedgeFill) (i j : HedgeIntent) : Prop where
  framed : frame j = frame i
  filled : j.hedgeFilledOunces = i.hedgeFilledOunces + quantity (owed fills i)
  legFilled : j.hedgeLegFilledOunces =
    i.hedgeLegFilledOunces + if i.hedgePlan ≠ [] then quantity (owed fills i) else 0
  status : j.status = if owed fills i = [] then i.status else .blocked

theorem Advanced.refl (i : HedgeIntent) : Advanced [] i i := by
  constructor <;> simp [owed, quantity]

/-- A view after a list of fills was applied to it under a HOLD. -/
structure Grown (fills : List HedgeFill) (s u : StoreState) : Prop where
  seen : u.seenHedgeFills = s.seenHedgeFills ∪ (fills.map (·.fillKey)).toFinset
  image : u.hedgeIntents.image frame = s.hedgeIntents.image frame
  each : ∀ k j, u.hedgeIntents.get? k = some j →
    ∃ i, s.hedgeIntents.get? k = some i ∧ Advanced fills i j
  sources : u.sourceOrders = s.sourceOrders
  active : u.activeSourceOrderId = s.activeSourceOrderId
  seenSources : u.seenSourceFills = s.seenSourceFills
  net : u.netUnhedgedOunces = s.netUnhedgedOunces
  halt : u.haltReason = s.haltReason
  freeze : u.sourceFreezeReason = s.sourceFreezeReason

theorem Grown.refl (s : StoreState) : Grown [] s s := by
  refine ⟨by simp, rfl, fun k j found => ⟨j, found, .refl j⟩, rfl, rfl, rfl, rfl, rfl, rfl⟩

/-- The fill belongs to the current order of one intent, and to no other. -/
structure Due (s : StoreState) (fill : HedgeFill) (i : HedgeIntent) : Prop where
  held : s.hedgeIntents.get? i.intentId = some i
  current : i.hedgeClientOrderId = some fill.clientOrderId
  live : ¬isRejectedAttempt i fill.clientOrderId
  sole : ∀ k j, s.hedgeIntents.get? k = some j →
    j.hedgeClientOrderId = some fill.clientOrderId ∨ isRejectedAttempt j fill.clientOrderId →
    k = i.intentId
  inLeg : i.hedgePlan ≠ [] → i.hedgeLegIndex < i.hedgePlan.length

section Frame

variable {i j : HedgeIntent} (same : frame j = frame i)

include same

theorem frame_intentId : j.intentId = i.intentId :=
  (congrArg IntentFields.intentId same :)

theorem frame_current : j.hedgeClientOrderId = i.hedgeClientOrderId :=
  (congrArg IntentFields.hedgeClientOrderId same :)

theorem frame_plan : j.hedgePlan = i.hedgePlan :=
  (congrArg IntentFields.hedgePlan same :)

theorem frame_legIndex : j.hedgeLegIndex = i.hedgeLegIndex :=
  (congrArg IntentFields.hedgeLegIndex same :)

theorem frame_orderIds : j.hedgeOrderIds = i.hedgeOrderIds :=
  (congrArg IntentFields.hedgeOrderIds same :)

theorem frame_attempt : j.rejectedAttempt = i.rejectedAttempt :=
  (congrArg IntentFields.rejectedAttempt same :)

theorem frame_fillKey : j.fillKey = i.fillKey :=
  (congrArg IntentFields.fillKey same :)

theorem frame_source : j.sourceClientOrderId = i.sourceClientOrderId ∧
    j.sourceTradeId = i.sourceTradeId ∧ j.sourceSide = i.sourceSide :=
  ⟨(congrArg IntentFields.sourceClientOrderId same :),
    (congrArg IntentFields.sourceTradeId same :), (congrArg IntentFields.sourceSide same :)⟩

theorem frame_hedge : j.hedgeSide = i.hedgeSide ∧
    j.hedgeQuantityOunces = i.hedgeQuantityOunces ∧ j.hedgePositionId = i.hedgePositionId ∧
    j.hedgePositionQuantityOunces = i.hedgePositionQuantityOunces :=
  ⟨(congrArg IntentFields.hedgeSide same :), (congrArg IntentFields.hedgeQuantityOunces same :),
    (congrArg IntentFields.hedgePositionId same :),
    (congrArg IntentFields.hedgePositionQuantityOunces same :)⟩

theorem frame_legOrderIds : j.hedgeLegOrderIds = i.hedgeLegOrderIds := by
  simp only [IntentFields.hedgeLegOrderIds, frame_attempt same, frame_orderIds same]

theorem frame_orderIds_eq (record : SourceOrderRecord) : orderIds j record = orderIds i record := by
  obtain ⟨-, quantity, position, ticket⟩ := frame_hedge same
  unfold orderIds historyIds plannedIds unplannedIds unplannedOrders
  rw [frame_plan same, frame_legIndex same, frame_current same, frame_legOrderIds same, quantity,
    position, ticket]

theorem frame_namesSourceFill : namesSourceFill j = namesSourceFill i := by
  obtain ⟨order, trade, -⟩ := frame_source same
  unfold namesSourceFill
  rw [frame_fillKey same, order, trade]

theorem frame_checkedFills (route : NativeRoute) (order : Native.Order)
    (record : SourceOrderRecord) (index : ℕ) :
    checkedFills route order record j index = checkedFills route order record i index := by
  obtain ⟨side, quantity, position, -⟩ := frame_hedge same
  unfold checkedFills boundQuantity boundPosition
  rw [frame_plan same, side, quantity, position]

theorem frame_isRejectedAttempt (cid : String) :
    isRejectedAttempt j cid ↔ isRejectedAttempt i cid := by
  simp only [isRejectedAttempt, frame_attempt same]

end Frame

/-- The lookup of a due fill's order finds its intent. -/
theorem Due.lookup {s u : StoreState} {fill : HedgeFill} {i : HedgeIntent} {done : List HedgeFill}
    (due : Due s fill i) (grown : Grown done s u) :
    ∃ j, u.intentForHedgeOrder fill.clientOrderId = some j ∧
      u.hedgeIntents.get? i.intentId = some j ∧ Advanced done i j := by
  obtain ⟨j, found, -⟩ := Dict.get?_of_image grown.image.symm due.held
  obtain ⟨i', held, advanced⟩ := grown.each _ _ found
  obtain rfl := Option.some.inj (due.held.symm.trans held)
  cases looked : u.intentForHedgeOrder fill.clientOrderId with
  | none =>
    have absent := Dict.first_eq_none_iff.1 looked _ _ found
    rw [frame_current advanced.framed, due.current] at absent
    simp at absent
  | some other =>
    obtain ⟨hit, k, there⟩ := Dict.first_eq_some looked
    obtain ⟨i', held', advanced'⟩ := grown.each _ _ there
    rw [decide_eq_true_eq, frame_current advanced'.framed,
      frame_isRejectedAttempt advanced'.framed] at hit
    obtain rfl := due.sole _ _ held' hit
    obtain rfl := Option.some.inj (found.symm.trans there)
    exact ⟨j, rfl, found, advanced⟩

theorem owed_concat (fills : List HedgeFill) (fill : HedgeFill) (i : HedgeIntent) :
    owed (fills ++ [fill]) i =
      if i.hedgeClientOrderId = some fill.clientOrderId then owed fills i ++ [fill]
      else owed fills i := by
  unfold owed
  rw [List.filter_append, List.filter_singleton]
  by_cases due : i.hedgeClientOrderId = some fill.clientOrderId <;> simp [due]

/-- One due fill, under a HOLD. -/
theorem Grown.apply {s u u' : StoreState} {done : List HedgeFill} {fill : HedgeFill}
    {i : HedgeIntent} {reason : String} {changed : Bool} (grown : Grown done s u)
    (due : Due s fill i) (fresh : fill.fillKey ∉ u.seenHedgeFills) (halted : s.haltReason ≠ none)
    (applied : u.applyFill fill (some reason) = .ok (u', changed)) :
    Grown (done ++ [fill]) s u' := by
  obtain ⟨j, lookup, found, advanced⟩ := due.lookup grown
  have live : ¬isRejectedAttempt j fill.clientOrderId :=
    fun archived => due.live ((frame_isRejectedAttempt advanced.framed _).1 archived)
  have current : j.hedgeClientOrderId = some fill.clientOrderId :=
    (frame_current advanced.framed).trans due.current
  obtain ⟨halt, some'⟩ := Option.ne_none_iff_exists'.1 halted
  obtain ⟨-, -, seen | none'⟩ | ⟨intent, -, -, hit, archived, -⟩ |
    ⟨intent, next, -, hit, -, -, fields, -, rfl⟩ := StoreState.applyFill_eq_ok applied
  · exact absurd seen fresh
  · rw [lookup] at none'
    cases none'
  · obtain rfl := Option.some.inj (lookup.symm.trans hit)
    exact absurd archived live
  · obtain rfl := Option.some.inj (lookup.symm.trans hit)
    have halted' : u.haltReason = some halt := grown.halt.trans some'
    have outcome : StoreState.advanceFields j fill u.haltReason (some reason) =
        (StoreState.holdFill j fill
          (if j.hedgePlan ≠ [] ∧ j.hedgeLegIndex < j.hedgePlan.length then
            j.hedgeLegFilledOunces + fill.fillOunces
          else j.hedgeLegFilledOunces), some halt) := by
      simp [StoreState.advanceFields, halted']
    rw [outcome] at fields
    have identity : j.intentId = i.intentId := frame_intentId advanced.framed
    have framed : frame next = frame j := by
      simp only [frame, fields, StoreState.holdFill]
    have owes : owed (done ++ [fill]) i = owed done i ++ [fill] := by
      rw [owed_concat, if_pos due.current]
    have moved : Advanced (done ++ [fill]) i next := by
      refine ⟨framed.trans advanced.framed, ?_, ?_, ?_⟩
      · have filled : next.hedgeFilledOunces = j.hedgeFilledOunces + fill.fillOunces := by
          rw [fields]
          rfl
        rw [filled, advanced.filled, owes, quantity_append, add_assoc]
        simp [quantity]
      · have legFilled : next.hedgeLegFilledOunces =
            if j.hedgePlan ≠ [] ∧ j.hedgeLegIndex < j.hedgePlan.length then
              j.hedgeLegFilledOunces + fill.fillOunces
            else j.hedgeLegFilledOunces := by
          rw [fields]
          rfl
        rw [legFilled, frame_plan advanced.framed, frame_legIndex advanced.framed,
          advanced.legFilled, owes, quantity_append]
        by_cases planned : i.hedgePlan ≠ []
        · rw [if_pos ⟨planned, due.inLeg planned⟩, if_pos planned, if_pos planned, add_assoc]
          simp [quantity]
        · rw [if_neg fun both => planned both.1, if_neg planned, if_neg planned]
      · have status : next.status = .blocked := by
          rw [fields]
          rfl
        rw [status, owes, if_neg (by simp)]
    refine ⟨?_, ?_, ?_, grown.sources, grown.active, grown.seenSources, grown.net, ?_,
      grown.freeze⟩
    · show insert fill.fillKey u.seenHedgeFills = _
      rw [grown.seen]
      ext key
      simp only [Finset.mem_insert, Finset.mem_union, List.mem_toFinset, List.map_append,
        List.mem_append, List.map_cons, List.map_nil, List.mem_singleton]
      tauto
    · show (u.hedgeIntents.set j.intentId next).image frame = _
      rw [identity, Dict.image_set found framed]
      exact grown.image
    · intro k other there
      change (u.hedgeIntents.set j.intentId next).get? k = some other at there
      rw [identity, Dict.get?_set] at there
      split at there
      · rename_i here
        subst here
        obtain rfl := Option.some.inj there
        exact ⟨i, due.held, moved⟩
      · rename_i apart
        obtain ⟨i', held, kept⟩ := grown.each _ _ there
        have untouched : i'.hedgeClientOrderId ≠ some fill.clientOrderId :=
          fun same => apart (due.sole _ _ held (.inl same)).symm
        have same : owed (done ++ [fill]) i' = owed done i' := by
          rw [owed_concat, if_neg untouched]
        exact ⟨i', held, kept.framed, by rw [same]; exact kept.filled,
          by rw [same]; exact kept.legFilled, by rw [same]; exact kept.status⟩
    · show (StoreState.advanceFields j fill u.haltReason (some reason)).2 = s.haltReason
      rw [outcome, some']

/-- The fills of a list that belong to one view. -/
def ofView (missing : List (ViewKey × HedgeFill)) (v : ViewKey) : List HedgeFill :=
  (missing.filter fun m => m.1 = v).map Prod.snd

theorem ofView_concat (missing : List (ViewKey × HedgeFill)) (m : ViewKey × HedgeFill)
    (v : ViewKey) :
    ofView (missing ++ [m]) v = if m.1 = v then ofView missing v ++ [m.2]
      else ofView missing v := by
  unfold ofView
  rw [List.filter_append, List.filter_singleton]
  by_cases here : m.1 = v <;> simp [here]

/-- The missing fills, each applied to its view. -/
def applyMissing (reason : String) (view : ViewKey → StoreState)
    (missing : List (ViewKey × HedgeFill)) : Except Raised (ViewKey → StoreState) :=
  missing.foldlM (fun view m => do
    let (filled, _) ← (view m.1).applyFill m.2 (some reason)
    pure (Function.update view m.1 filled)) view

/-- Missing fills, each due in its view and none seen, all reach their intents. -/
theorem applyMissing_grown {reason : String} {view view' : ViewKey → StoreState}
    {missing : List (ViewKey × HedgeFill)}
    (due : ∀ m ∈ missing, (view m.1).haltReason ≠ none ∧
      m.2.fillKey ∉ (view m.1).seenHedgeFills ∧ ∃ i, Due (view m.1) m.2 i)
    (distinct : (missing.map fun m => m.2.fillKey).Nodup)
    (h : applyMissing reason view missing = .ok view') (v : ViewKey) :
    Grown (ofView missing v) (view v) (view' v) := by
  induction missing using List.reverseRecOn generalizing view' v with
  | nil =>
    simp only [applyMissing, List.foldlM_nil, pure_eq_ok] at h
    subst h
    exact .refl _
  | append_singleton missing m ih =>
    simp only [applyMissing, List.foldlM_append, bind_eq_ok, List.foldlM_cons, List.foldlM_nil,
      pure_eq_ok, Prod.exists] at h
    obtain ⟨mid, before, u, ⟨filled, changed, applied, rfl⟩, rfl⟩ := h
    rw [List.map_append, List.nodup_append] at distinct
    have grown : ∀ v, Grown (ofView missing v) (view v) (mid v) :=
      ih (fun other member => due other (List.mem_append_left _ member)) distinct.1 before
    rw [ofView_concat]
    by_cases here : m.1 = v
    · subst here
      rw [if_pos rfl, Function.update_self]
      obtain ⟨halted, unseen, i, due⟩ := due m (by simp)
      refine (grown m.1).apply due ?_ halted applied
      rw [(grown m.1).seen, Finset.mem_union, List.mem_toFinset, not_or]
      refine ⟨unseen, fun again => ?_⟩
      obtain ⟨fill, member, same⟩ := List.mem_map.1 again
      obtain ⟨other, listed, rfl⟩ := List.mem_map.1 member
      have listed' := List.mem_of_mem_filter listed
      exact distinct.2.2 _ (List.mem_map_of_mem (f := fun m => m.2.fillKey) listed') _ (by simp)
        same
    · rw [if_neg here, Function.update_of_ne (Ne.symm here)]
      exact grown v

/-- Every view held, as the projection leaves it before the first fill. -/
def heldViews (store : BusinessStore) (reason : String) (v : ViewKey) : StoreState :=
  if v ∈ store.viewKeys then (store.view v).hold reason else store.view v

/-- What a published projection leaves. -/
structure Published (store store' : BusinessStore) (view : ViewKey → StoreState) : Prop where
  keys : store'.viewKeys = store.viewKeys
  strategy : store'.strategyId = store.strategyId
  views : ∀ v ∈ store.viewKeys, store'.view v = view v
  valid : ∀ bound instrumentId message, store.checkOwner bound instrumentId message = .ok () →
    store'.checkOwner bound instrumentId message = .ok ()

theorem persist_eq_ok {o o' : MakerStateStore} {pub : Publication}
    (h : o.persist pub = (.ok (), o')) : o'.view = o.view ∧ o'.cfg = o.cfg ∧
      o'.book.allocations = o.book.allocations ∧ o'.cfg.validate o'.book = .ok () := by
  have candidate : o.candidate.view = o.view ∧ o.candidate.cfg = o.cfg ∧
      o.candidate.book.allocations = o.book.allocations := by
    unfold MakerStateStore.candidate
    split <;> exact ⟨rfl, rfl, rfl⟩
  unfold MakerStateStore.persist at h
  dsimp only at h
  split at h
  · cases h
  · rename_i valid
    cases pub with
    | published =>
      cases h
      exact ⟨candidate.1, candidate.2.1, candidate.2.2, valid⟩
    | failed | parentSyncFailed => cases h

/-- A standalone store applies the missing fills to its only view. -/
theorem applyMissing_standalone {reason : String} {missing : List (ViewKey × HedgeFill)}
    (only : ∀ m ∈ missing, m.1 = .taker) {view : ViewKey → StoreState} {t : StoreState}
    (h : (missing.map Prod.snd).foldlM
      (fun t fill => Prod.fst <$> StoreState.applyFill t fill (some reason)) (view .taker) =
      .ok t) :
    ∃ view', applyMissing reason view missing = .ok view' ∧ view' .taker = t := by
  induction missing generalizing view with
  | nil =>
    simp only [List.map_nil, List.foldlM_nil, pure_eq_ok] at h
    exact ⟨view, rfl, h⟩
  | cons m missing ih =>
    obtain ⟨here, only⟩ := List.forall_mem_cons.1 only
    simp only [List.map_cons, List.foldlM_cons, bind_eq_ok, map_eq_ok, Prod.exists] at h
    obtain ⟨_, ⟨filled, changed, applied, rfl⟩, loop⟩ := h
    have next : Function.update view m.1 filled .taker = filled := by
      rw [here, Function.update_self]
    rw [← next] at loop
    obtain ⟨view', rest, last⟩ := ih only loop
    refine ⟨view', ?_, last⟩
    simp only [applyMissing, List.foldlM_cons, bind_eq_ok, pure_eq_ok, Prod.exists]
    exact ⟨_, ⟨filled, changed, by rw [here]; exact applied, rfl⟩, rest⟩

/-- An owner applies them view by view. -/
theorem applyMissing_owner {reason : String} {missing : List (ViewKey × HedgeFill)}
    {o changed : MakerStateStore}
    (h : missing.foldlM (fun o fill => do
      let (filled, _) ← (o.view fill.1).applyFill fill.2 (some reason)
      pure (o.setView fill.1 filled)) o = .ok changed) :
    applyMissing reason o.view missing = .ok changed.view ∧ changed.cfg = o.cfg := by
  induction missing generalizing o with
  | nil =>
    simp only [List.foldlM_nil, pure_eq_ok] at h
    subst h
    exact ⟨rfl, rfl⟩
  | cons m missing ih =>
    simp only [List.foldlM_cons, bind_eq_ok, pure_eq_ok, Prod.exists] at h
    obtain ⟨_, ⟨filled, moved, applied, rfl⟩, loop⟩ := h
    obtain ⟨rest, cfg⟩ := ih loop
    refine ⟨?_, cfg⟩
    simp only [applyMissing, List.foldlM_cons, bind_eq_ok, pure_eq_ok, Prod.exists]
    exact ⟨_, ⟨filled, moved, applied, rfl⟩, rest⟩

theorem transact_eq_ok {o o' : MakerStateStore} {pub : Publication}
    {change : Except Raised MakerStateStore} (h : o.transact pub change = (.ok (), o')) :
    ∃ changed, change = .ok changed ∧ changed.persist pub = (.ok (), o') := by
  unfold MakerStateStore.transact at h
  split at h
  · cases h
  · rename_i changed
    split at h
    · rename_i published
      cases h
      exact ⟨changed, rfl, published⟩
    · cases h

theorem publish_eq_ok {store store' : BusinessStore} {reason : String}
    {missing : List (ViewKey × HedgeFill)} {pub : Publication}
    (known : ∀ m ∈ missing, m.1 ∈ store.viewKeys)
    (h : publish store reason missing pub = (.ok (), store')) :
    ∃ view, applyMissing reason (heldViews store reason) missing = .ok view ∧
      Published store store' view := by
  cases store with
  | standalone store =>
    unfold publish at h
    dsimp only at h
    obtain ⟨result, rfl⟩ := Prod.mk.inj h
    unfold StoreState.projectHedgeFills at result ⊢
    split at result
    · cases result
    · rename_i t folded
      cases pub with
      | published =>
        have start : heldViews (.standalone store) reason .taker = store.memory.hold reason := rfl
        rw [← start] at folded
        obtain ⟨view, applied, last⟩ :=
          applyMissing_standalone
            (fun m member => by simpa [BusinessStore.viewKeys] using known m member) folded
        refine ⟨view, applied, rfl, rfl, fun v member => ?_, fun _ _ _ valid => valid⟩
        obtain rfl : v = .taker := by simpa [BusinessStore.viewKeys] using member
        exact last.symm
      | failed | parentSyncFailed => cases result
  | owner o instruments =>
    unfold publish at h
    dsimp only at h
    obtain ⟨result, rfl⟩ := Prod.mk.inj h
    obtain ⟨changed, projected, persisted⟩ := transact_eq_ok (Prod.ext result rfl)
    obtain ⟨applied, cfg⟩ := applyMissing_owner projected
    obtain ⟨views, cfg', -, valid⟩ := persist_eq_ok persisted
    have same : (o.transact pub (o.projectHedgeFills reason missing)).2.cfg = o.cfg :=
      cfg'.trans cfg
    refine ⟨changed.view, applied, ?_, ?_, fun v _ => by
      show (o.transact pub (o.projectHedgeFills reason missing)).2.view v = _
      rw [views], fun bound id message checked => ?_⟩
    · show OwnerConfig.viewKeys _ = OwnerConfig.viewKeys _
      rw [same]
    · funext given v
      simp only [BusinessStore.strategyId, same]
    · simp only [BusinessStore.checkOwner, bind_eq_ok, raiseIf_eq_ok, exists_const] at checked ⊢
      exact ⟨checked.1, valid⟩

end ArbNautilus.Store.HedgeProjection
