import ArbNautilus.Store.Accepts
import ArbNautilus.Store.Hedge

namespace ArbNautilus.Store

open Base

namespace JsonStateStore

def planFor (intent : HedgeIntent) (positions : List Position) :
    Except Raised (List HedgeLeg) := do
  let plan ← planHedgeDelta positions intent.hedgeSide
    (intent.hedgeQuantityOunces - intent.hedgeFilledOunces)
  validateBoundExit intent plan
  pure plan

/-- The plan an intent has, or the one it is given now. -/
def ensurePlan (store : JsonStateStore) (intent : HedgeIntent) (positions : List Position)
    (pub : Publication) : Except Raised HedgeIntent × JsonStateStore :=
  if intent.hedgePlan ≠ [] then (.ok intent, store)
  else match planFor intent positions with
    | .error e => (.error e, store)
    | .ok plan => store.commit pub (store.memory.bindHedgePlan intent.intentId plan)

def tryNextLeg (store : JsonStateStore) (intent : HedgeIntent) (positions : List Position)
    (pub : Publication) : Except Raised HedgeLeg × JsonStateStore :=
  match store.ensurePlan intent positions pub with
  | (.error e, store') => (.error e, store')
  | (.ok planned, store') => (MakerStateStore.currentLeg planned positions, store')

/-- `next_hedge_leg` over a standalone store, whose dispatch is always ready. -/
def nextHedgeLeg (store : JsonStateStore) (intentId : String) (positions : List Position)
    (planned blocked : Publication) : Except Raised HedgeLeg × JsonStateStore :=
  match store.memory.hedgeIntents.get? intentId with
  | none => (.error (.keyError intentId), store)
  | some intent =>
    match store.tryNextLeg intent positions planned with
    | (.ok leg, store') => (.ok leg, store')
    | (.error e, store') =>
      if e.plansBlock then
        match store'.memory.hedgeIntents.get? intentId with
        | none => (.error (.keyError intentId), store')
        | some current =>
          if current.status = .completed then (.error (.hedgePlanningError e.message), store')
          else match store'.commit blocked
              (store'.memory.blockHedgeIntent intentId e.message) with
            | (.error e', store'') => (.error e', store'')
            | (.ok (), store'') => (.error (.hedgePlanningError e.message), store'')
      else (.error e, store')

def bindHedgeLeg (store : JsonStateStore) (intentId clientOrderId : String) (pub : Publication) :
    Except Raised Unit × JsonStateStore :=
  store.commit pub (store.memory.bindHedgeOrder intentId clientOrderId)

def onHedgeFilled (store : JsonStateStore) (fill : HedgeFill) (pub : Publication) :
    Except Raised Bool × JsonStateStore :=
  store.commit pub (store.memory.applyHedgeFill fill)

end JsonStateStore

inductive HedgeCall where
  | next (intentId : String) (positions : List Position) (planned blocked : Publication)
  | bind (intentId clientOrderId : String) (pub : Publication)
  | status (clientOrderId : String) (status : ObligationStatus) (nativeStatus : Option String)
      (pub : Publication) (reported : status.Reported)
  | fill (fill : HedgeFill) (pub : Publication)
  | recover (pub : Publication)
  | restart

/-- A store in a hedge run, beside the fills it recorded on the way. -/
structure HedgeRun where
  store : JsonStateStore
  received : List HedgeFill

namespace HedgeRun

def start (s : StoreState) : HedgeRun := ⟨⟨s, s⟩, []⟩

/-- What the store has recorded of a fill once the call is over. -/
def record (r : HedgeRun) (fill : HedgeFill) (after : JsonStateStore) : List HedgeFill :=
  if fill.fillKey ∉ r.store.memory.seenHedgeFills ∧ fill.fillKey ∈ after.memory.seenHedgeFills then
    r.received ++ [fill]
  else r.received

def call (r : HedgeRun) : HedgeCall → HedgeRun
  | .next intentId positions planned blocked =>
    { r with store := (r.store.nextHedgeLeg intentId positions planned blocked).2 }
  | .bind intentId clientOrderId pub =>
    { r with store := (r.store.bindHedgeLeg intentId clientOrderId pub).2 }
  | .status clientOrderId status nativeStatus pub _ =>
    { r with store := (r.store.commit pub
        (r.store.memory.updateHedgeStatus clientOrderId status nativeStatus)).2 }
  | .fill fill pub =>
    let after := (r.store.onHedgeFilled fill pub).2
    ⟨after, r.record fill after⟩
  | .recover pub => { r with store := (r.store.commit pub r.store.memory.recoverForStart).2 }
  | .restart => { r with store := ⟨r.store.file, r.store.file⟩ }

def callAll (r : HedgeRun) (calls : List HedgeCall) : HedgeRun := calls.foldl call r

/-- A call that leaves an intent to the operator whatever its orders go on to fill: a REJECTED,
an UNKNOWN, a recovery, a planning block, or a fact that contradicts an archived rejection. -/
def Disturbs (r : HedgeRun) (k : String) : HedgeCall → Prop
  | .next intentId positions planned _ => intentId = k ∧
    ∃ intent e, r.store.memory.hedgeIntents.get? k = some intent ∧ intent.status ≠ .completed ∧
      (r.store.tryNextLeg intent positions planned).1 = .error e ∧ e.plansBlock
  | .status clientOrderId status nativeStatus _ _ =>
    ∃ intent, r.store.memory.hedgeIntents.get? k = some intent ∧
      (intent.hedgeClientOrderId = some clientOrderId ∧ (status = .rejected ∨ status = .unknown) ∨
        isRejectedAttempt intent clientOrderId ∧
          (status ≠ .rejected ∨ nativeStatus ≠ none ∧ nativeStatus ≠ some "REJECTED"))
  | .fill fill _ => ∃ intent, r.store.memory.hedgeIntents.get? k = some intent ∧
    isRejectedAttempt intent fill.clientOrderId
  | .recover _ => True
  | .bind _ _ _ | .restart => False

def Undisturbed (k : String) (r : HedgeRun) : List HedgeCall → Prop
  | [] => True
  | c :: calls => ¬r.Disturbs k c ∧ Undisturbed k (r.call c) calls

end HedgeRun

/-- The leg an intent had reached when the run began. -/
def begun (start : StoreState) (k : String) : ℕ :=
  ((start.hedgeIntents.get? k).map (·.hedgeLegIndex)).getD 0

/-- The order of a leg received one fill, of exactly the leg's quantity. -/
def LegFilled (received : List HedgeFill) (orders : List String) (i : ℕ) (leg : HedgeLeg) : Prop :=
  ∃ order fill, orders[i]? = some order ∧
    received.filter (·.clientOrderId = order) = [fill] ∧ fill.fillOunces = leg.quantityOunces

/-- Every leg of an intent that was open when the run began is filled. -/
def LegsFilled (start : StoreState) (received : List HedgeFill) (k : String)
    (intent : HedgeIntent) : Prop :=
  ∀ i leg, begun start k ≤ i → intent.hedgePlan[i]? = some leg →
    LegFilled received intent.hedgeLegOrderIds i leg

theorem LegFilled.grow {received : List HedgeFill} {orders : List String} {i : ℕ} {leg : HedgeLeg}
    (h : LegFilled received orders i leg) {fill : HedgeFill}
    (apart : orders[i]? ≠ some fill.clientOrderId) :
    LegFilled (received ++ [fill]) orders i leg := by
  obtain ⟨order, first, found, only, whole⟩ := h
  refine ⟨order, first, found, ?_, whole⟩
  have other : fill.clientOrderId ≠ order := by
    rintro rfl
    exact apart found
  simp [List.filter_append, only, other]

theorem LegFilled.extend {received : List HedgeFill} {orders orders' : List String} {i : ℕ}
    {leg : HedgeLeg} (h : LegFilled received orders i leg) (grows : orders <+: orders') :
    LegFilled received orders' i leg := by
  obtain ⟨order, first, found, facts⟩ := h
  refine ⟨order, first, ?_, facts⟩
  obtain ⟨more, rfl⟩ := grows
  exact (List.getElem?_append_left (List.getElem?_eq_some_iff.1 found).1).trans found

/-- How a state agrees with the fills recorded so far: a fill finished its leg or held its
intent, and every leg finished in the run has its one fill. -/
structure Logbook (start : StoreState) (received : List HedgeFill) (s : StoreState) : Prop where
  known : ∀ fill ∈ received, ∃ k intent, s.hedgeIntents.get? k = some intent ∧
    fill.clientOrderId ∈ intent.hedgeOrderIds
  held : ∀ fill ∈ received, ∀ k intent, s.hedgeIntents.get? k = some intent →
    intent.hedgePlan ≠ [] → intent.hedgeClientOrderId = some fill.clientOrderId →
    intent.status.Unresolved
  begun : ∀ k intent, s.hedgeIntents.get? k = some intent → begun start k ≤ intent.hedgeLegIndex
  finished : ∀ k intent i leg, s.hedgeIntents.get? k = some intent → Store.begun start k ≤ i →
    i < intent.hedgeLegIndex → intent.hedgePlan[i]? = some leg →
    LegFilled received intent.hedgeLegOrderIds i leg

/-- What the logbook asks of a replacement that records no fill. -/
structure Carries (received : List HedgeFill) (i j : HedgeIntent) : Prop where
  orders : ∀ order ∈ i.hedgeOrderIds, order ∈ j.hedgeOrderIds
  legs : i.hedgeLegOrderIds <+: j.hedgeLegOrderIds
  index : j.hedgeLegIndex = i.hedgeLegIndex
  plan : i.hedgePlan ≠ [] → j.hedgePlan = i.hedgePlan
  held : ∀ fill ∈ received, j.hedgePlan ≠ [] → j.hedgeClientOrderId = some fill.clientOrderId →
    j.status.Unresolved

/-- A leg behind the index belongs to a plan. -/
theorem planned_of_index {intent : HedgeIntent} {i : ℕ} (past : i < intent.hedgeLegIndex) :
    intent.hedgePlan ≠ [] := by
  intro unplanned
  have index := (intent.sound.unplanned unplanned).1
  omega

theorem Carries.status {received : List HedgeFill} {i j : HedgeIntent} {status : ObligationStatus}
    (fields : j.toIntentFields = { i.toIntentFields with status })
    (held : ∀ fill ∈ received, i.hedgePlan ≠ [] →
      i.hedgeClientOrderId = some fill.clientOrderId → status.Unresolved) :
    Carries received i j := by
  have orders : j.hedgeLegOrderIds = i.hedgeLegOrderIds := by rw [fields]; rfl
  refine ⟨?_, orders ▸ List.prefix_rfl, by rw [fields], fun _ => by rw [fields], ?_⟩
  · rw [fields]; exact fun _ member => member
  · rw [fields]; exact held

namespace Logbook

variable {start s t : StoreState} {received : List HedgeFill}

theorem opened (start : StoreState) : Logbook start [] start := by
  refine ⟨nofun, nofun, fun k intent found => ?_, fun k intent i leg found from' past => ?_⟩
  · simp [Store.begun, found]
  · simp only [Store.begun, found, Option.map_some, Option.getD_some] at from'
    omega

theorem of_same (h : Logbook start received s) (same : t.hedgeIntents = s.hedgeIntents) :
    Logbook start received t := by
  obtain ⟨known, held, begun, finished⟩ := h
  exact ⟨same ▸ known, same ▸ held, same ▸ begun, same ▸ finished⟩

theorem set (h : Logbook start received s) {k : String} {i j : HedgeIntent}
    (found : s.hedgeIntents.get? k = some i) (carries : Carries received i j)
    (same : t.hedgeIntents = s.hedgeIntents.set k j) : Logbook start received t := by
  have stored : t.hedgeIntents.get? k = some j := by rw [same, Dict.get?_set_self]
  have others : ∀ k', k ≠ k' → t.hedgeIntents.get? k' = s.hedgeIntents.get? k' := fun k' apart => by
    rw [same, Dict.get?_set_of_ne _ apart]
  refine ⟨fun fill member => ?_, fun fill member k' intent at' => ?_, fun k' intent at' => ?_,
    fun k' intent n leg at' from' past current => ?_⟩
  · obtain ⟨k', intent, at', order⟩ := h.known fill member
    by_cases here : k = k'
    · subst here
      obtain rfl := Option.some.inj (found.symm.trans at')
      exact ⟨k, j, stored, carries.orders _ order⟩
    · exact ⟨k', intent, (others k' here).trans at', order⟩
  · by_cases here : k = k'
    · subst here
      obtain rfl := Option.some.inj (stored.symm.trans at')
      exact carries.held fill member
    · exact h.held fill member k' intent ((others k' here).symm.trans at')
  · by_cases here : k = k'
    · subst here
      obtain rfl := Option.some.inj (stored.symm.trans at')
      exact carries.index ▸ h.begun k i found
    · exact h.begun k' intent ((others k' here).symm.trans at')
  · by_cases here : k = k'
    · subst here
      obtain rfl := Option.some.inj (stored.symm.trans at')
      rw [carries.index] at past
      rw [carries.plan (planned_of_index past)] at current
      exact (h.finished k i n leg found from' past current).extend carries.legs
    · exact h.finished k' intent n leg ((others k' here).symm.trans at') from' past current

end Logbook

/-- The intent an order leads to is stored under its own identity. -/
theorem found_at {s : StoreState} (index : OrderIndex s.hedgeIntents) {order : String}
    {intent : HedgeIntent} (lookup : s.intentForHedgeOrder order = some intent) :
    s.hedgeIntents.get? intent.intentId = some intent := by
  obtain ⟨-, k, stored⟩ := StoreState.intentForHedgeOrder_eq_some lookup
  rwa [index.keyed k intent stored]

/-- What every state of a hedge run keeps. -/
structure RunState (start : StoreState) (received : List HedgeFill) (s : StoreState) : Prop where
  index : OrderIndex s.hedgeIntents
  laid : Every Laid s
  log : Logbook start received s

namespace RunState

variable {start s t : StoreState} {received : List HedgeFill}

/-- A call that records no fill and is not about to settle the store. -/
theorem of_log (h : RunState start received s) (op : StoreOp)
    (yields : (op.change (fun _ => "") s).Yields t) (log : Logbook start received t) :
    RunState start received t :=
  ⟨change_index h.index yields,
    change_every (fun _ => Blank.laid) (fun _ _ => Edit.laid) h.index h.laid yields, log⟩

theorem bindHedgeOrder (h : RunState start received s) {intentId order : String}
    (yields : (s.bindHedgeOrder intentId order).Yields t) : RunState start received t := by
  refine h.of_log (.bindHedgeOrder intentId order) yields ?_
  obtain ⟨intent, bound, found, pending, unbound, -, fresh, fields, rfl⟩ :=
    StoreState.bindHedgeOrder_yields yields
  have apart := (fresh intent ((Dict.mem_values_iff _ _).2 ⟨_, found⟩)).2
  have legs : bound.hedgeLegOrderIds = intent.hedgeLegOrderIds ++ [order] :=
    hedgeLegOrderIds_bound apart (by rw [fields]) (by rw [fields])
  refine h.log.set found ⟨?_, legs ▸ List.prefix_append _ _, by rw [fields],
    fun _ => by rw [fields], fun fill member _ current => ?_⟩ rfl
  · rw [fields]
    exact fun _ member => List.mem_append_left _ member
  · rw [fields] at current
    obtain rfl := Option.some.inj current
    obtain ⟨k', other, at', known⟩ := h.log.known fill member
    exact absurd known (fresh other ((Dict.mem_values_iff _ _).2 ⟨_, at'⟩)).2

theorem bindHedgePlan (h : RunState start received s) {intentId : String} {plan : List HedgeLeg}
    (yields : (s.bindHedgePlan intentId plan).Yields t) : RunState start received t := by
  refine h.of_log (.bindHedgePlan intentId plan) ((Change.discard_yields _ _).2 yields) ?_
  obtain ⟨intent, planned, found, unplanned, -, unbound, -, -, fields, rfl⟩ :=
    StoreState.bindHedgePlan_yields yields
  have legs : planned.hedgeLegOrderIds = intent.hedgeLegOrderIds := by rw [fields]; rfl
  refine h.log.set found ⟨?_, legs ▸ List.prefix_rfl, ?_, fun was => absurd unplanned was,
    fun fill _ _ current => ?_⟩ rfl
  · rw [fields]; exact fun _ member => member
  · rw [fields]; exact (intent.sound.unplanned unplanned).1.symm
  · rw [fields, unbound] at current
    cases current

theorem blockHedgeIntent (h : RunState start received s) {intentId reason : String}
    (yields : (s.blockHedgeIntent intentId reason).Yields t) : RunState start received t := by
  refine h.of_log (.blockHedgeIntent intentId reason) yields ?_
  obtain ⟨intent, blocked, found, -, fields, rfl⟩ := StoreState.blockHedgeIntent_yields yields
  exact h.log.set found (.status fields fun _ _ _ _ => .inl rfl) rfl

theorem updateHedgeStatus (h : RunState start received s) {order : String}
    {status : ObligationStatus} {nativeStatus : Option String}
    (yields : (s.updateHedgeStatus order status nativeStatus).Yields t) :
    RunState start received t := by
  refine h.of_log (.updateHedgeStatus order status nativeStatus) yields ?_
  obtain ⟨intent, updated, lookup, same, -, -, -, -, how⟩ :=
    StoreState.updateHedgeStatus_yields yields
  have found := found_at h.index lookup
  refine h.log.set found ?_ same
  obtain ⟨-, -, fields⟩ | ⟨-, resolved, -, fields⟩ := how
  · exact .status fields fun _ _ _ _ => .inl rfl
  · exact .status fields fun fill member planned current =>
      absurd (h.log.held fill member _ intent found planned current) resolved

theorem recoverForStart (h : RunState start received s) (yields : s.recoverForStart.Yields t) :
    RunState start received t := by
  refine h.of_log .recoverForStart ((Change.discard_yields _ _).2 yields) ?_
  obtain ⟨orders, v, halt, -, mapped, rfl⟩ := StoreState.recoverForStart_yields yields
  have kept : Logbook start received v :=
    mapIntents_of_keyed (P := Logbook start received) (s := { s with sourceOrders := orders })
      (fun u intent replaced member log found made => log.set found
        (.status (IntentFields.make_eq_ok made) fun _ _ _ _ => .inr (.inr rfl)) rfl) h.index.keyed
      (h.log.of_same rfl) (List.filter_sublist.trans List.filter_sublist) mapped
  exact kept.of_same rfl

/-- A recorded fill holds its intent or finishes its leg; the rest of the logbook stands. -/
theorem recorded (h : RunState start received s) {fill : HedgeFill} {i j : HedgeIntent}
    (found : s.hedgeIntents.get? i.intentId = some i)
    (bound : i.hedgeClientOrderId = some fill.clientOrderId)
    (orders : j.hedgeOrderIds = i.hedgeOrderIds) (legs : j.hedgeLegOrderIds = i.hedgeLegOrderIds)
    (plan : j.hedgePlan = i.hedgePlan)
    (progress : (j.hedgeLegIndex = i.hedgeLegIndex ∧ (j.hedgePlan ≠ [] → j.status.Unresolved)) ∨
      (j.hedgeLegIndex = i.hedgeLegIndex + 1 ∧ j.hedgeClientOrderId = none ∧
        ¬i.status.Unresolved ∧ ∃ leg, i.hedgePlan[i.hedgeLegIndex]? = some leg ∧
          fill.fillOunces = leg.quantityOunces))
    (same : t.hedgeIntents = s.hedgeIntents.set i.intentId j) :
    Logbook start (received ++ [fill]) t := by
  have current := (h.laid _ i found).current _ bound
  have listed : fill.clientOrderId ∈ i.hedgeOrderIds := h.index.current _ i _ found bound
  have stored : t.hedgeIntents.get? i.intentId = some j := by rw [same, Dict.get?_set_self]
  have others : ∀ k, i.intentId ≠ k → t.hedgeIntents.get? k = s.hedgeIntents.get? k :=
    fun k apart => by rw [same, Dict.get?_set_of_ne _ apart]
  have elsewhere : ∀ k other, i.intentId ≠ k → s.hedgeIntents.get? k = some other →
      fill.clientOrderId ∉ other.hedgeOrderIds := fun k other apart at' member =>
    apart (h.index.owner _ k i other _ found at' listed member)
  -- the orders of the legs already filled differ from the order of this fill
  have behind : ∀ n, n < i.hedgeLegIndex → i.hedgeLegOrderIds[n]? ≠ some fill.clientOrderId := by
    intro n past twice
    obtain ⟨first, at₁⟩ := List.getElem?_eq_some_iff.1 twice
    obtain ⟨second, at₂⟩ := List.getElem?_eq_some_iff.1 current
    have equal := (List.Nodup.getElem_inj_iff (hedgeLegOrderIds_nodup i)).1 (at₁.trans at₂.symm)
    omega
  refine ⟨fun f member => ?_, fun f member k intent at' planned open' => ?_,
    fun k intent at' => ?_, fun k intent n leg at' from' past leg_at => ?_⟩
  · rw [List.mem_append, List.mem_singleton] at member
    rcases member with member | rfl
    · obtain ⟨k, intent, at', order⟩ := h.log.known f member
      by_cases here : i.intentId = k
      · subst here
        obtain rfl := Option.some.inj (found.symm.trans at')
        exact ⟨_, j, stored, orders ▸ order⟩
      · exact ⟨k, intent, (others k here).trans at', order⟩
    · exact ⟨_, j, stored, orders ▸ listed⟩
  · by_cases here : i.intentId = k
    · subst here
      obtain rfl := Option.some.inj (stored.symm.trans at')
      obtain ⟨-, held⟩ | ⟨-, gone, -⟩ := progress
      · exact held planned
      · rw [gone] at open'; cases open'
    · have before := (others k here).symm.trans at'
      rw [List.mem_append, List.mem_singleton] at member
      rcases member with member | rfl
      · exact h.log.held f member k intent before planned open'
      · exact absurd (h.index.current k intent _ before open') (elsewhere k intent here before)
  · by_cases here : i.intentId = k
    · subst here
      obtain rfl := Option.some.inj (stored.symm.trans at')
      have reached := h.log.begun _ i found
      omega
    · exact h.log.begun k intent ((others k here).symm.trans at')
  · by_cases here : i.intentId = k
    · subst here
      obtain rfl := Option.some.inj (stored.symm.trans at')
      rw [plan] at leg_at
      rw [legs]
      by_cases old : n < i.hedgeLegIndex
      · exact (h.log.finished _ i n leg found from' old leg_at).grow (behind n old)
      · obtain ⟨index, -⟩ | ⟨index, -, resolved, own, own_at, whole⟩ := progress
        · omega
        · obtain rfl : n = i.hedgeLegIndex := by omega
          obtain rfl := Option.some.inj (own_at.symm.trans leg_at)
          refine ⟨_, fill, current, ?_, whole⟩
          have none_before : received.filter (·.clientOrderId = fill.clientOrderId) = [] := by
            rw [List.filter_eq_nil_iff]
            intro f member same_order
            simp only [decide_eq_true_eq] at same_order
            have planned : i.hedgePlan ≠ [] := by
              rintro empty
              simp [empty] at own_at
            exact resolved (h.log.held f member _ i found planned (same_order ▸ bound))
          simp [List.filter_append, none_before]
    · have before := (others k here).symm.trans at'
      refine (h.log.finished k intent n leg before from' past leg_at).grow fun order_at => ?_
      exact elsewhere k intent here before
        ((hedgeLegOrderIds_sublist _).subset (List.mem_of_getElem? order_at))

theorem applyHedgeFill (h : RunState start received s) {fill : HedgeFill}
    (yields : (s.applyHedgeFill fill).Yields t) : fill.fillKey ∉ s.seenHedgeFills ∧
      RunState start
        (if fill.fillKey ∈ t.seenHedgeFills then received ++ [fill] else received) t := by
  obtain ⟨unseen, applied⟩ := StoreState.applyHedgeFill_yields yields
  refine ⟨unseen, @change_index (fun _ => "") _ _ (.applyHedgeFill fill) h.index
      ((Change.discard_yields _ _).2 yields),
    applyFill_every (fun _ _ => Edit.laid) h.laid applied, ?_⟩
  obtain ⟨-, absent, -⟩ | ⟨intent, blocked, -, lookup, -, fields, rfl⟩ |
    ⟨intent, advanced, -, lookup, current, positive, fields, -, rfl⟩ :=
    StoreState.applyFill_eq_ok applied
  · cases absent
  · have found := found_at h.index lookup
    split
    · rename_i seen
      exact absurd seen unseen
    · exact h.log.set found (.status fields fun _ _ _ _ => .inl rfl) rfl
  · have found := found_at h.index lookup
    have bound := (StoreState.intentForHedgeOrder_eq_some lookup).1.resolve_right current
    have advance := StoreState.advanceFields_advance intent positive s.haltReason none
    rw [← fields] at advance
    rw [if_pos (Finset.mem_insert_self _ _)]
    obtain ⟨-, -, -, -, orders, attempt, -⟩ := advance.frame
    have laid := h.laid _ intent found
    refine h.recorded found bound orders (hedgeLegOrderIds_congr attempt orders) ?_ ?_ rfl
    · generalize advanced.toIntentFields = after at advance
      cases advance <;> rfl
    · generalize advanced.toIntentFields = after at advance
      cases advance with
      | held => exact .inl ⟨rfl, fun _ => .inl rfl⟩
      | legDone planned resolved leg leg_at whole =>
        have unfilled := laid.whole fun held => resolved (.inl held)
        exact .inr ⟨rfl, rfl, resolved, leg, leg_at, by rw [whole, unfilled, sub_zero]⟩
      | single unplanned => exact .inl ⟨rfl, fun planned => absurd unplanned planned⟩

end RunState

theorem JsonStateStore.commit_keeps {Q : StoreState → Prop} {α : Type} {store : JsonStateStore}
    {c : Change StoreState α} (h : Q store.memory ∧ Q store.file)
    (step : ∀ t, c.Yields t → Q t) (pub : Publication) :
    Q (store.commit pub c).2.memory ∧ Q (store.commit pub c).2.file := by
  obtain same | ⟨t, yields, saved | kept⟩ := store.commit_cases pub c
  · rw [same]; exact h
  · rw [saved]; exact ⟨step t yields, step t yields⟩
  · rw [kept]; exact ⟨step t yields, h.2⟩

/-- A fill is reserved: it is in memory only once it is in the file. -/
theorem JsonStateStore.onHedgeFilled_cases (store : JsonStateStore) (fill : HedgeFill)
    (pub : Publication) : (store.onHedgeFilled fill pub).2 = store ∨
      ∃ t, (store.memory.applyHedgeFill fill).Yields t ∧
        (store.onHedgeFilled fill pub).2 = ⟨t, t⟩ := by
  unfold onHedgeFilled StoreState.applyHedgeFill
  split
  · exact .inl rfl
  · split
    · exact .inl rfl
    · rename_i t changed _
      cases changed with
      | false => exact .inl rfl
      | true =>
        cases pub with
        | published => exact .inr ⟨t, .reserves t true, rfl⟩
        | failed => exact .inl rfl
        | parentSyncFailed => exact .inr ⟨t, .reserves t true, rfl⟩

/-- Planning changes a store through its two calls alone. -/
theorem JsonStateStore.nextHedgeLeg_keeps {Q : StoreState → Prop} {store : JsonStateStore}
    (h : Q store.memory ∧ Q store.file) (intentId : String) (positions : List Position)
    (planned blocked : Publication)
    (plan : ∀ intent plan t, store.memory.hedgeIntents.get? intentId = some intent →
      (store.memory.bindHedgePlan intent.intentId plan).Yields t → Q t)
    (block : ∀ intent e reason t, store.memory.hedgeIntents.get? intentId = some intent →
      (store.tryNextLeg intent positions planned).1 = .error e → e.plansBlock →
      Q (store.tryNextLeg intent positions planned).2.memory →
      ((store.tryNextLeg intent positions planned).2.memory.blockHedgeIntent
        intentId reason).Yields t → Q t) :
    Q (store.nextHedgeLeg intentId positions planned blocked).2.memory ∧
      Q (store.nextHedgeLeg intentId positions planned blocked).2.file := by
  unfold nextHedgeLeg
  split
  · exact h
  · rename_i intent found
    have tried : Q (store.tryNextLeg intent positions planned).2.memory ∧
        Q (store.tryNextLeg intent positions planned).2.file := by
      have ensured : Q (store.ensurePlan intent positions planned).2.memory ∧
          Q (store.ensurePlan intent positions planned).2.file := by
        unfold ensurePlan
        split
        · exact h
        · split
          · exact h
          · exact commit_keeps h (fun t => plan intent _ t found) planned
      unfold tryNextLeg
      split <;> rename_i result <;> rw [result] at ensured <;> exact ensured
    have blocks' := fun e reason t => block intent e reason t found
    split
    · rename_i result
      rw [result] at tried
      exact tried
    · rename_i e store' result
      rw [result] at tried blocks'
      split
      · rename_i blocks
        split
        · exact tried
        · split
          · exact tried
          · have kept := commit_keeps tried (fun t => blocks' e e.message t rfl blocks tried.1)
              blocked
            split <;> rename_i after <;> rw [after] at kept <;> exact kept
      · exact tried

namespace HedgeRun

/-- Memory and file agree with the same fills. -/
def Keeps (start : StoreState) (r : HedgeRun) : Prop :=
  RunState start r.received r.store.memory ∧ RunState start r.received r.store.file

theorem call_fill (r : HedgeRun) (fill : HedgeFill) (pub : Publication) :
    r.call (.fill fill pub) = r ∨ ∃ t, (r.store.memory.applyHedgeFill fill).Yields t ∧
      r.call (.fill fill pub) = ⟨⟨t, t⟩,
        if fill.fillKey ∈ t.seenHedgeFills then r.received ++ [fill] else r.received⟩ := by
  have result : r.call (.fill fill pub) = ⟨(r.store.onHedgeFilled fill pub).2,
      r.record fill (r.store.onHedgeFilled fill pub).2⟩ := rfl
  rw [result]
  obtain same | ⟨t, yields, saved⟩ := r.store.onHedgeFilled_cases fill pub
  · rw [same]
    have unrecorded : r.record fill r.store = r.received := if_neg (by tauto)
    rw [unrecorded]
    exact .inl rfl
  · have unseen := (StoreState.applyHedgeFill_yields yields).1
    rw [saved]
    exact .inr ⟨t, yields, by simp [record, unseen]⟩

theorem Keeps.call {start : StoreState} {r : HedgeRun} (h : Keeps start r) (c : HedgeCall) :
    Keeps start (r.call c) := by
  cases c with
  | next intentId positions planned blocked =>
    exact JsonStateStore.nextHedgeLeg_keeps h intentId positions planned blocked
      (fun _ _ _ _ yields => h.1.bindHedgePlan yields)
      fun _ _ _ _ _ _ _ kept yields => kept.blockHedgeIntent yields
  | bind => exact JsonStateStore.commit_keeps h (fun _ => h.1.bindHedgeOrder) _
  | status => exact JsonStateStore.commit_keeps h (fun _ => h.1.updateHedgeStatus) _
  | fill fill pub =>
    obtain same | ⟨t, yields, saved⟩ := r.call_fill fill pub
    · rw [same]; exact h
    · rw [saved]
      exact ⟨(h.1.applyHedgeFill yields).2, (h.1.applyHedgeFill yields).2⟩
  | recover => exact JsonStateStore.commit_keeps h (fun _ => h.1.recoverForStart) _
  | restart => exact ⟨h.2, h.2⟩

end HedgeRun

/-- A leg of the run received a fill of some other quantity. -/
def Misfilled (start : StoreState) (received : List HedgeFill) (k : String)
    (intent : HedgeIntent) : Prop :=
  ∃ i leg, begun start k ≤ i ∧ intent.hedgePlan[i]? = some leg ∧
    ∃ fill ∈ received, intent.hedgeLegOrderIds[i]? = some fill.clientOrderId ∧
      fill.fillOunces ≠ leg.quantityOunces

theorem Misfilled.grow {start : StoreState} {received : List HedgeFill} {k : String}
    {i j : HedgeIntent} (h : Misfilled start received k i) (fills : List HedgeFill)
    (plan : j.hedgePlan = i.hedgePlan) (legs : j.hedgeLegOrderIds = i.hedgeLegOrderIds) :
    Misfilled start (received ++ fills) k j := by
  obtain ⟨n, leg, from', leg_at, fill, member, order, other⟩ := h
  exact ⟨n, leg, from', plan ▸ leg_at, fill, List.mem_append_left _ member, legs ▸ order, other⟩

/-- An intent that the run left undisturbed is unresolved through a wrong fill alone. -/
def Explained (start : StoreState) (received : List HedgeFill) (k : String)
    (s : StoreState) : Prop :=
  ∀ intent, s.hedgeIntents.get? k = some intent → intent.status.Unresolved →
    Misfilled start received k intent

section Undisturbed

variable {start s t : StoreState} {received : List HedgeFill} {k : String}

/-- A replacement elsewhere, or one that leaves the intent resolved. -/
theorem Explained.set (h : Explained start received k s) {k' : String} {j : HedgeIntent}
    (resolved : k' = k → ¬j.status.Unresolved)
    (same : t.hedgeIntents = s.hedgeIntents.set k' j) : Explained start received k t := by
  intro intent found unresolved
  rw [same, Dict.get?_set] at found
  split at found
  · rename_i here
    obtain rfl := Option.some.inj found
    exact absurd unresolved (resolved here)
  · exact h intent found unresolved

theorem bindHedgePlan_explained (h : Explained start received k s) {intentId : String}
    {plan : List HedgeLeg} (yields : (s.bindHedgePlan intentId plan).Yields t) :
    Explained start received k t := by
  obtain ⟨intent, planned, -, -, pending, -, -, -, fields, rfl⟩ :=
    StoreState.bindHedgePlan_yields yields
  refine h.set (fun _ => ?_) rfl
  rw [show planned.status = .pending by rw [fields]; exact pending]
  decide

theorem bindHedgeOrder_explained (h : Explained start received k s) {intentId order : String}
    (yields : (s.bindHedgeOrder intentId order).Yields t) : Explained start received k t := by
  obtain ⟨intent, bound, -, -, -, -, -, fields, rfl⟩ := StoreState.bindHedgeOrder_yields yields
  refine h.set (fun _ => ?_) rfl
  rw [show bound.status = .submitting by rw [fields]]
  decide

theorem updateHedgeStatus_explained (h : Explained start received k s)
    (index : OrderIndex s.hedgeIntents) {order : String} {status : ObligationStatus}
    {nativeStatus : Option String} (reported : status.Reported)
    (quiet : ∀ intent, s.hedgeIntents.get? k = some intent →
      ¬(intent.hedgeClientOrderId = some order ∧ (status = .rejected ∨ status = .unknown)) ∧
      ¬(isRejectedAttempt intent order ∧
        (status ≠ .rejected ∨ nativeStatus ≠ none ∧ nativeStatus ≠ some "REJECTED")))
    (yields : (s.updateHedgeStatus order status nativeStatus).Yields t) :
    Explained start received k t := by
  have given := yields
  obtain ⟨intent, updated, lookup, same, -, -, -, -, how⟩ :=
    StoreState.updateHedgeStatus_yields yields
  have found := found_at index lookup
  refine h.set (fun here => ?_) same
  subst here
  obtain ⟨unrejected, consistent⟩ := quiet intent found
  obtain ⟨archived, -⟩ | ⟨current, -, -, fields⟩ := how
  · have silent : ¬(status ≠ .rejected ∨ nativeStatus ≠ none ∧ nativeStatus ≠ some "REJECTED") :=
      fun conflict => consistent ⟨archived, conflict⟩
    simp [StoreState.updateHedgeStatus, lookup, archived, silent] at given
  · have bound := (StoreState.intentForHedgeOrder_eq_some lookup).1.resolve_right current
    have working : ¬(status = .rejected ∨ status = .unknown) := fun bad => unrejected ⟨bound, bad⟩
    rw [show updated.status = status by rw [fields]]
    obtain rfl | rfl | rfl | rfl := reported
    · decide
    · decide
    · exact absurd (.inl rfl) working
    · exact absurd (.inr rfl) working

/-- A resolved intent is held by a fill only where it misses the remainder of its leg. -/
theorem advanceFields_missed {intent : HedgeIntent} {fill : HedgeFill} {halt : Option String}
    (resolved : ¬intent.status.Unresolved)
    (held : (StoreState.advanceFields intent fill halt none).1.status.Unresolved) :
    intent.hedgePlan ≠ [] ∧ ∀ leg, intent.hedgePlan[intent.hedgeLegIndex]? = some leg →
      fill.fillOunces ≠ leg.quantityOunces - intent.hedgeLegFilledOunces := by
  unfold StoreState.advanceFields at held
  rw [if_neg (by simpa using resolved)] at held
  split at held
  · refine absurd held ?_
    simp only [StoreState.addFill]
    split <;> decide
  · rename_i planned
    refine ⟨planned, fun leg leg_at => ?_⟩
    rw [leg_at] at held
    dsimp only at held
    split at held
    · assumption
    · refine absurd held ?_
      simp only [StoreState.finishLeg]
      split <;> decide

theorem applyHedgeFill_explained (state : RunState start received s)
    (h : Explained start received k s) {fill : HedgeFill}
    (quiet : ∀ intent, s.hedgeIntents.get? k = some intent →
      ¬isRejectedAttempt intent fill.clientOrderId)
    (yields : (s.applyHedgeFill fill).Yields t) :
    Explained start (if fill.fillKey ∈ t.seenHedgeFills then received ++ [fill] else received)
      k t := by
  obtain ⟨-, absent, -⟩ | ⟨intent, blocked, unseen, lookup, archived, -, rfl⟩ |
    ⟨intent, advanced, -, lookup, current, positive, fields, -, rfl⟩ :=
    StoreState.applyFill_eq_ok (StoreState.applyHedgeFill_yields yields).2
  · cases absent
  · split
    · rename_i seen
      exact absurd seen unseen
    · refine h.set (fun here => ?_) rfl
      subst here
      exact absurd archived (quiet intent (found_at state.index lookup))
  · rw [if_pos (Finset.mem_insert_self _ _)]
    have found := found_at state.index lookup
    have bound := (StoreState.intentForHedgeOrder_eq_some lookup).1.resolve_right current
    have advance := StoreState.advanceFields_advance intent positive s.haltReason none
    have frame := advance.frame
    intro later stored unresolved
    change (s.hedgeIntents.set intent.intentId advanced).get? k = some later at stored
    rw [Dict.get?_set] at stored
    split at stored
    · rename_i here
      subst here
      obtain rfl := Option.some.inj stored
      have legs : advanced.hedgeLegOrderIds = intent.hedgeLegOrderIds := by
        rw [fields]
        exact hedgeLegOrderIds_congr frame.2.2.2.2.2.1 frame.2.2.2.2.1
      have plan : advanced.hedgePlan = intent.hedgePlan := by
        rw [fields]
        generalize (StoreState.advanceFields intent fill s.haltReason none).1 = after at advance
        cases advance <;> rfl
      by_cases before : intent.status.Unresolved
      · exact (h intent found before).grow _ plan legs
      · rw [fields] at unresolved
        obtain ⟨planned, missed⟩ := advanceFields_missed before unresolved
        have laid := state.laid _ intent found
        have inside : intent.hedgeLegIndex < intent.hedgePlan.length :=
          lt_of_le_of_ne intent.sound.indexBound
            (laid.unfinished (bound ▸ Option.some_ne_none _) planned)
        have leg_at := List.getElem?_eq_getElem inside
        have other := missed _ leg_at
        rw [laid.whole fun held => before (.inl held), sub_zero] at other
        exact ⟨intent.hedgeLegIndex, _, state.log.begun _ intent found, by rw [plan]; exact leg_at,
          fill, by simp, by rw [legs]; exact laid.current _ bound, other⟩
    · exact (h later stored unresolved).grow _ rfl rfl

/-- Planning leaves a completed intent and its store alone. -/
theorem tryNextLeg_completed {store : JsonStateStore} {intentId : String} {intent : HedgeIntent}
    (keyed : ∀ k intent, store.memory.hedgeIntents.get? k = some intent → intent.intentId = k)
    (found : store.memory.hedgeIntents.get? intentId = some intent)
    (completed : intent.status = .completed) (positions : List Position) (pub : Publication) :
    (store.tryNextLeg intent positions pub).2 = store := by
  have same : (store.ensurePlan intent positions pub).2 = store := by
    unfold JsonStateStore.ensurePlan
    split
    · rfl
    · split
      · rfl
      · rename_i plan _
        obtain same | ⟨t, yields, -⟩ := store.commit_cases pub
          (store.memory.bindHedgePlan intent.intentId plan)
        · exact same
        · obtain ⟨other, -, stored, -, pending, -⟩ := StoreState.bindHedgePlan_yields yields
          rw [keyed _ _ found, found] at stored
          rw [← Option.some.inj stored, completed] at pending
          cases pending
  unfold JsonStateStore.tryNextLeg
  split <;> rename_i result <;> rw [result] at same <;> exact same

/-- A call that leaves an intent undisturbed keeps its story straight. -/
theorem HedgeRun.Keeps.undisturbed {r : HedgeRun} (h : Keeps start r)
    (clear : Explained start r.received k r.store.memory ∧
      Explained start r.received k r.store.file) {c : HedgeCall} (quiet : ¬r.Disturbs k c) :
    Explained start (r.call c).received k (r.call c).store.memory ∧
      Explained start (r.call c).received k (r.call c).store.file := by
  cases c with
  | next intentId positions planned blocked =>
    refine JsonStateStore.nextHedgeLeg_keeps clear intentId positions planned blocked
      (fun _ _ _ _ yields => bindHedgePlan_explained clear.1 yields)
      fun intent e reason t found failed blocks kept yields => ?_
    obtain ⟨current, held, stored, unfinished, -, rfl⟩ := StoreState.blockHedgeIntent_yields yields
    refine kept.set (fun here => ?_) rfl
    subst here
    have open' : intent.status ≠ .completed := by
      intro completed
      rw [tryNextLeg_completed h.1.index.keyed found completed, found] at stored
      exact unfinished (Option.some.inj stored ▸ completed)
    exact absurd ⟨rfl, intent, e, found, open', failed, blocks⟩ quiet
  | bind => exact JsonStateStore.commit_keeps clear (fun _ => bindHedgeOrder_explained clear.1) _
  | status order status nativeStatus pub reported =>
    refine JsonStateStore.commit_keeps clear (fun _ => updateHedgeStatus_explained clear.1
      h.1.index reported fun intent found => ⟨fun bad => ?_, fun bad => ?_⟩) _
    · exact quiet ⟨intent, found, .inl bad⟩
    · exact quiet ⟨intent, found, .inr bad⟩
  | fill fill pub =>
    obtain same | ⟨t, yields, saved⟩ := r.call_fill fill pub
    · rw [same]; exact clear
    · have next := applyHedgeFill_explained h.1 clear.1
        (fun intent found archived => quiet ⟨intent, found, archived⟩) yields
      rw [saved]
      exact ⟨next, next⟩
  | recover => exact absurd trivial quiet
  | restart => exact ⟨clear.2, clear.2⟩

end Undisturbed

/-- What a hedge run promises of the store it leaves. -/
structure HedgeRun.Lawful (start : StoreState) (r : HedgeRun) : Prop where
  /-- The constructor rejects no record that a hedge call makes. -/
  accepts : ∀ digest (op : StoreOp), op.Hedging → ∀ e,
    op.change digest r.store.memory = .raises e → ∀ i : IntentFields, i.make ≠ .error e
  /-- The leg handed out is the first without a fill. -/
  served : ∀ k positions planned blocked leg after,
    r.store.nextHedgeLeg k positions planned blocked = (.ok leg, after) →
    ∃ intent, after.memory.hedgeIntents.get? k = some intent ∧
      intent.hedgePlan[intent.hedgeLegIndex]? = some leg
  /-- An order is bound to that leg, and no intent had it before. -/
  bound : ∀ k order pub after, r.store.bindHedgeLeg k order pub = (.ok (), after) →
    ∃ intent later, r.store.memory.hedgeIntents.get? k = some intent ∧
      after.memory.hedgeIntents.get? k = some later ∧
      (∀ k' other, r.store.memory.hedgeIntents.get? k' = some other →
        order ∉ other.hedgeOrderIds) ∧
      later.hedgeLegIndex = intent.hedgeLegIndex ∧ later.hedgePlan = intent.hedgePlan ∧
      (intent.hedgePlan ≠ [] → intent.hedgeLegIndex < intent.hedgePlan.length) ∧
      intent.hedgeLegOrderIds.length = intent.hedgeLegIndex ∧
      later.hedgeLegOrderIds = intent.hedgeLegOrderIds ++ [order]
  /-- Each leg begun has one order, the last of them current until its fill. -/
  laid : ∀ k intent, r.store.memory.hedgeIntents.get? k = some intent →
    intent.hedgeLegOrderIds.length =
      intent.hedgeLegIndex + intent.hedgeClientOrderId.toList.length ∧
    ∀ order, intent.hedgeClientOrderId = some order →
      intent.hedgeLegOrderIds[intent.hedgeLegIndex]? = some order
  /-- No order is in two histories, or twice in one. -/
  unique : ∀ k k' i j order, r.store.memory.hedgeIntents.get? k = some i →
    r.store.memory.hedgeIntents.get? k' = some j → order ∈ i.hedgeOrderIds →
    order ∈ j.hedgeOrderIds → k = k' ∧ i.hedgeOrderIds.Nodup
  completed : ∀ k intent, r.store.memory.hedgeIntents.get? k = some intent →
    intent.hedgePlan ≠ [] → intent.status = .completed →
    LegsFilled start r.received k intent ∧
      planQuantity intent.hedgePlan = intent.hedgeQuantityOunces ∧
      intent.hedgeFilledOunces = intent.hedgeQuantityOunces
  /-- A fill that misses the remainder of its leg holds the intent where it is. -/
  missed : ∀ k intent leg fill pub, r.store.memory.hedgeIntents.get? k = some intent →
    intent.hedgeClientOrderId = some fill.clientOrderId →
    intent.hedgePlan[intent.hedgeLegIndex]? = some leg →
    fill.fillKey ∉ r.store.memory.seenHedgeFills → 0 < fill.fillOunces →
    fill.fillOunces ≠ leg.quantityOunces - intent.hedgeLegFilledOunces →
    (pub = .failed ∧ r.store.onHedgeFilled fill pub = (.error .osError, r.store)) ∨
    ∃ later, (r.store.onHedgeFilled fill pub).2.memory.hedgeIntents.get? k = some later ∧
      later.status = .blocked ∧ later.hedgeLegIndex = intent.hedgeLegIndex
  /-- A fill of nothing is refused and changes nothing. -/
  refused : ∀ k intent fill pub, r.store.memory.hedgeIntents.get? k = some intent →
    intent.hedgeClientOrderId = some fill.clientOrderId →
    fill.fillKey ∉ r.store.memory.seenHedgeFills → fill.fillOunces ≤ 0 →
    r.store.onHedgeFilled fill pub =
      (.error (.valueError "hedge fill quantity must be positive"), r.store)

section Lawful

variable {start s : StoreState} {received : List HedgeFill}

/-- The order of an intent leads to that intent. -/
theorem lookup_current (index : OrderIndex s.hedgeIntents) {k order : String} {intent : HedgeIntent}
    (found : s.hedgeIntents.get? k = some intent)
    (bound : intent.hedgeClientOrderId = some order) :
    s.intentForHedgeOrder order = some intent ∧ ¬isRejectedAttempt intent order := by
  constructor
  · cases lookup : s.intentForHedgeOrder order with
    | none => exact absurd bound (StoreState.intentForHedgeOrder_eq_none.1 lookup k intent found).1
    | some other =>
      obtain ⟨known, k', stored⟩ := StoreState.intentForHedgeOrder_eq_some lookup
      obtain rfl : k' = k := index.owner k' k other intent _ stored found
        (index.recorded stored known) (index.current k intent _ found bound)
      exact stored.symm.trans found
  · rintro ⟨attempt, archived, rfl⟩
    exact (intent.sound.attempt attempt archived).released bound

/-- A plan that is handed back is in memory. -/
theorem plan_stored {store after : JsonStateStore} {intentId : String} {plan : List HedgeLeg}
    {pub : Publication} {ready : HedgeIntent}
    (h : store.commit pub (store.memory.bindHedgePlan intentId plan) = (.ok ready, after)) :
    after.memory.hedgeIntents.get? intentId = some ready := by
  unfold StoreState.bindHedgePlan at h
  split at h
  · cases h
  · rename_i intent found
    split at h
    · split at h
      · cases h
      · cases h; exact found
    · split at h
      · cases h
      · split at h
        · cases h
        · cases pub <;> cases h
          exact Dict.get?_set_self _ _ _

theorem served_leg {store : JsonStateStore} {k : String} {positions : List Position}
    {planned blocked : Publication} {leg : HedgeLeg} {after : JsonStateStore}
    (keyed : ∀ k intent, store.memory.hedgeIntents.get? k = some intent → intent.intentId = k)
    (h : store.nextHedgeLeg k positions planned blocked = (.ok leg, after)) :
    ∃ intent, after.memory.hedgeIntents.get? k = some intent ∧
      intent.hedgePlan[intent.hedgeLegIndex]? = some leg := by
  unfold JsonStateStore.nextHedgeLeg at h
  split at h
  · cases h
  · rename_i intent found
    split at h
    · rename_i tried
      cases h
      unfold JsonStateStore.tryNextLeg at tried
      split at tried
      · cases tried
      · rename_i ready store' ensured
        simp only [Prod.mk.injEq] at tried
        obtain ⟨leg_at, rfl⟩ := tried
        have here : ready.hedgePlan[ready.hedgeLegIndex]? = some leg := by
          unfold MakerStateStore.currentLeg at leg_at
          split at leg_at
          · cases leg_at
          · rename_i own at'
            simp only [bind_eq_ok, pure_eq_ok] at leg_at
            obtain ⟨-, -, rfl⟩ := leg_at
            exact at'
        refine ⟨ready, ?_, here⟩
        unfold JsonStateStore.ensurePlan at ensured
        split at ensured
        · cases ensured; exact found
        · split at ensured
          · cases ensured
          · have stored := plan_stored ensured
            rwa [keyed k intent found] at stored
    · split at h
      · split at h
        · cases h
        · split at h
          · cases h
          · split at h <;> cases h
      · cases h

theorem bound_leg {store : JsonStateStore} (laid : Every Laid store.memory) {k order : String}
    {pub : Publication} {after : JsonStateStore}
    (h : store.bindHedgeLeg k order pub = (.ok (), after)) :
    ∃ intent later, store.memory.hedgeIntents.get? k = some intent ∧
      after.memory.hedgeIntents.get? k = some later ∧
      (∀ k' other, store.memory.hedgeIntents.get? k' = some other →
        order ∉ other.hedgeOrderIds) ∧
      later.hedgeLegIndex = intent.hedgeLegIndex ∧ later.hedgePlan = intent.hedgePlan ∧
      (intent.hedgePlan ≠ [] → intent.hedgeLegIndex < intent.hedgePlan.length) ∧
      intent.hedgeLegOrderIds.length = intent.hedgeLegIndex ∧
      later.hedgeLegOrderIds = intent.hedgeLegOrderIds ++ [order] := by
  have stored : ∃ t, (store.memory.bindHedgeOrder k order).Yields t ∧ after.memory = t := by
    unfold JsonStateStore.bindHedgeLeg at h
    cases change : store.memory.bindHedgeOrder k order with
    | raises e => rw [change] at h; cases h
    | keeps a =>
      unfold StoreState.bindHedgeOrder at change
      split at change
      · cases change
      · split at change
        · cases change
        · split at change <;> cases change
    | publishes t a =>
      rw [change] at h
      refine ⟨t, .publishes t a, ?_⟩
      cases pub <;> cases h
      rfl
    | reserves t a =>
      rw [change] at h
      refine ⟨t, .reserves t a, ?_⟩
      cases pub <;> cases h
      rfl
  obtain ⟨t, yields, rfl⟩ := stored
  obtain ⟨intent, bound, found, pending, unbound, -, fresh, fields, same⟩ :=
    StoreState.bindHedgeOrder_yields yields
  have apart : ∀ k' other, store.memory.hedgeIntents.get? k' = some other →
      order ∉ other.hedgeOrderIds := fun k' other at' =>
    (fresh other ((Dict.mem_values_iff _ _).2 ⟨k', at'⟩)).2
  have shape := laid k intent found
  refine ⟨intent, bound, found, ?_, apart, by rw [fields], by rw [fields], fun planned => ?_, ?_,
    ?_⟩
  · rw [same]
    exact Dict.get?_set_self _ _ _
  · refine lt_of_le_of_ne intent.sound.indexBound fun last => ?_
    obtain ⟨-, done | held⟩ := shape.finished planned last
    · rw [pending] at done; cases done
    · rw [pending] at held; cases held
  · simpa [unbound] using shape.counted
  · exact hedgeLegOrderIds_bound (apart k intent found) (by rw [fields]) (by rw [fields])

/-- The missed remainder blocks whatever the intent's status was. -/
theorem advanceFields_misses {intent : HedgeIntent} {fill : HedgeFill} {leg : HedgeLeg}
    {halt : Option String} (leg_at : intent.hedgePlan[intent.hedgeLegIndex]? = some leg)
    (missed : fill.fillOunces ≠ leg.quantityOunces - intent.hedgeLegFilledOunces) :
    (StoreState.advanceFields intent fill halt none).1.status = .blocked ∧
      (StoreState.advanceFields intent fill halt none).1.hedgeLegIndex = intent.hedgeLegIndex := by
  have planned : intent.hedgePlan ≠ [] := by
    rintro empty
    simp [empty] at leg_at
  unfold StoreState.advanceFields
  split
  · exact ⟨rfl, rfl⟩
  · rw [leg_at]
    dsimp only
    rw [if_pos missed]
    exact ⟨rfl, rfl⟩

theorem missed_fill {store : JsonStateStore} (index : OrderIndex store.memory.hedgeIntents)
    {k : String} {intent : HedgeIntent} {leg : HedgeLeg} {fill : HedgeFill} (pub : Publication)
    (found : store.memory.hedgeIntents.get? k = some intent)
    (bound : intent.hedgeClientOrderId = some fill.clientOrderId)
    (leg_at : intent.hedgePlan[intent.hedgeLegIndex]? = some leg)
    (unseen : fill.fillKey ∉ store.memory.seenHedgeFills) (positive : 0 < fill.fillOunces)
    (missed : fill.fillOunces ≠ leg.quantityOunces - intent.hedgeLegFilledOunces) :
    (pub = .failed ∧ store.onHedgeFilled fill pub = (.error .osError, store)) ∨
    ∃ later, (store.onHedgeFilled fill pub).2.memory.hedgeIntents.get? k = some later ∧
      later.status = .blocked ∧ later.hedgeLegIndex = intent.hedgeLegIndex := by
  obtain ⟨lookup, current⟩ := lookup_current index found bound
  obtain ⟨advanced, fields, applied⟩ := applyHedgeFill_current unseen positive lookup current
  have outcome : advanced.status = .blocked ∧
      advanced.hedgeLegIndex = intent.hedgeLegIndex := by
    rw [fields]
    exact advanceFields_misses leg_at missed
  have stored : (store.memory.hedgeIntents.set intent.intentId advanced).get? k =
      some advanced := by
    rw [index.keyed k intent found, Dict.get?_set_self]
  unfold JsonStateStore.onHedgeFilled
  rw [applied]
  cases pub with
  | published => exact .inr ⟨advanced, stored, outcome⟩
  | failed => exact .inl ⟨rfl, rfl⟩
  | parentSyncFailed => exact .inr ⟨advanced, stored, outcome⟩

theorem refused_fill {store : JsonStateStore} (index : OrderIndex store.memory.hedgeIntents)
    {k : String} {intent : HedgeIntent} {fill : HedgeFill} (pub : Publication)
    (found : store.memory.hedgeIntents.get? k = some intent)
    (bound : intent.hedgeClientOrderId = some fill.clientOrderId)
    (unseen : fill.fillKey ∉ store.memory.seenHedgeFills) (empty : fill.fillOunces ≤ 0) :
    store.onHedgeFilled fill pub =
      (.error (.valueError "hedge fill quantity must be positive"), store) := by
  obtain ⟨lookup, current⟩ := lookup_current index found bound
  have refused : store.memory.applyFill fill none =
      .error (.valueError "hedge fill quantity must be positive") := by
    simp only [StoreState.applyFill, unseen, lookup, current, if_false]
    simp [raiseIf, empty, bind, Except.bind]
  have raised : store.memory.applyHedgeFill fill =
      .raises (.valueError "hedge fill quantity must be positive") := by
    unfold StoreState.applyHedgeFill
    rw [if_neg (by simp [unseen, lookup]), refused]
  unfold JsonStateStore.onHedgeFilled
  rw [raised]
  rfl

/-- What every state of a run keeps gives all that the run promises. -/
theorem RunState.lawful {r : HedgeRun} (h : RunState start r.received r.store.memory) :
    r.Lawful start where
  accepts _ _ hedging _ raises := hedging_accepts hedging h.laid raises
  served _ _ _ _ _ _ given := served_leg h.index.keyed given
  bound _ _ _ _ given := bound_leg h.laid given
  laid k intent found := ⟨(h.laid k intent found).counted, (h.laid k intent found).current⟩
  unique k k' i j order first second mine yours :=
    ⟨h.index.owner k k' i j order first second mine yours, i.sound.orderIds.2⟩
  completed k intent found planned done := by
    have plan := intent.sound.planned planned
    obtain ⟨last, filled⟩ := plan.completed done
    refine ⟨fun i leg from' leg_at => ?_, plan.quantity, filled⟩
    exact h.log.finished k intent i leg found from'
      (last ▸ (List.getElem?_eq_some_iff.1 leg_at).1) leg_at
  missed _ _ _ _ pub found bound leg_at unseen positive missed :=
    missed_fill h.index pub found bound leg_at unseen positive missed
  refused _ _ _ pub found bound unseen empty := refused_fill h.index pub found bound unseen empty

/-- An intent whose legs are all filled completes, unless something held it. -/
theorem RunState.completes (h : RunState start received s) {k : String} {intent : HedgeIntent}
    (found : s.hedgeIntents.get? k = some intent) (planned : intent.hedgePlan ≠ [])
    (clear : Explained start received k s) (filled : LegsFilled start received k intent) :
    intent.status = .completed := by
  have laid := h.laid k intent found
  have resolved : ¬intent.status.Unresolved := by
    intro unresolved
    obtain ⟨i, leg, from', leg_at, fill, member, order_at, other⟩ := clear intent found unresolved
    obtain ⟨order, only, at', alone, whole⟩ := filled i leg from' leg_at
    obtain rfl := Option.some.inj (order_at.symm.trans at')
    have among : fill ∈ received.filter (·.clientOrderId = fill.clientOrderId) := by
      simp [member]
    rw [alone, List.mem_singleton] at among
    exact other (among ▸ whole)
  by_cases last : intent.hedgeLegIndex = intent.hedgePlan.length
  · obtain ⟨-, done | held⟩ := laid.finished planned last
    · exact done
    · exact absurd (.inl held) resolved
  · have inside := lt_of_le_of_ne intent.sound.indexBound last
    obtain ⟨order, fill, order_at, alone, -⟩ := filled intent.hedgeLegIndex _
      (h.log.begun k intent found) (List.getElem?_eq_getElem inside)
    have recorded : fill ∈ received ∧ fill.clientOrderId = order := by
      have member : fill ∈ received.filter (·.clientOrderId = order) := by simp [alone]
      simpa using member
    -- the order of the first unfilled leg is current, and its fill would have held the intent
    have bound : intent.hedgeClientOrderId = some order := by
      have more := (List.getElem?_eq_some_iff.1 order_at).1
      rw [laid.counted] at more
      cases current : intent.hedgeClientOrderId with
      | none => simp [current] at more
      | some own => exact (laid.current own current).symm.trans order_at
    exact absurd (h.log.held fill recorded.1 k intent found planned (recorded.2 ▸ bound)) resolved

end Lawful

namespace HedgeRun

variable {start : StoreState}

theorem Keeps.callAll {r : HedgeRun} (h : Keeps start r) (calls : List HedgeCall) :
    Keeps start (r.callAll calls) := by
  induction calls generalizing r with
  | nil => exact h
  | cons c calls ih => exact ih (h.call c)

theorem Keeps.undisturbedAll {r : HedgeRun} (h : Keeps start r) {k : String}
    (clear : Explained start r.received k r.store.memory ∧
      Explained start r.received k r.store.file) {calls : List HedgeCall}
    (quiet : r.Undisturbed k calls) :
    Explained start (r.callAll calls).received k (r.callAll calls).store.memory := by
  induction calls generalizing r with
  | nil => exact clear.1
  | cons c calls ih => exact ih (h.call c) (h.undisturbed clear quiet.1) quiet.2

end HedgeRun

/-- Two ounces bought at the source, to be hedged by closing the one ticket that opposes. -/
def openHedge : List StoreOp := [
  .beginSource { clientOrderId := "O-1", side := .buy, quantityOunces := 2 },
  .reserveSourceFill ⟨"O-1|V-1|T-1", "O-1", "T-1", .buy, 2⟩]

def openTicket : List Position := [⟨"7", true, false, 2⟩]

def boundClose : List HedgeCall := [
  .next "hedge-d31eeeaaf150156a8ad133b4" openTicket .published .published,
  .bind "hedge-d31eeeaaf150156a8ad133b4" "H-1" .published]

/-- A store opened on the file of a reachable one. -/
theorem Reachable.reopened {digest : String → String} {store : JsonStateStore}
    (h : Reachable digest store) : Reachable digest ⟨store.file, store.file⟩ :=
  .next h (.restart store)

/-- The hedge, reopened, and the state a run leaves of it. -/
def openedHedge : StoreState :=
  (JsonStateStore.empty.run (fun _ => "d31eeeaaf150156a8ad133b4") openHedge).file

theorem openedHedge_reachable :
    Reachable (fun _ => "d31eeeaaf150156a8ad133b4") ⟨openedHedge, openedHedge⟩ :=
  (Reachable.start.run openHedge).reopened

/-- One leg of two ounces whose order has the one fill. -/
theorem legsFilled_single {start : StoreState} {received : List HedgeFill} {k : String}
    {intent : HedgeIntent} {order : String} (fill : HedgeFill)
    (plan : intent.hedgePlan.map (·.quantityOunces) = [fill.fillOunces])
    (orders : intent.hedgeLegOrderIds = [order])
    (only : received.filter (·.clientOrderId = order) = [fill]) :
    LegsFilled start received k intent := by
  intro i leg _ leg_at
  have quantity : (intent.hedgePlan.map (·.quantityOunces))[i]? = some leg.quantityOunces := by
    rw [List.getElem?_map, leg_at]
    rfl
  rw [plan] at quantity
  cases i with
  | zero => exact ⟨order, fill, by rw [orders]; rfl, only, Option.some.inj quantity⟩
  | succ i => simp at quantity

/-- A fill of nothing does not block, and a drifted ticket blocks what the orders go on to fill. -/
theorem empty_fill_and_drift : ∃ k,
    (∃ calls intent leg fill,
      ((HedgeRun.start openedHedge).callAll calls).store.memory.hedgeIntents.get? k = some intent ∧
      intent.hedgeClientOrderId = some fill.clientOrderId ∧
      intent.hedgePlan[intent.hedgeLegIndex]? = some leg ∧
      fill.fillOunces ≠ leg.quantityOunces - intent.hedgeLegFilledOunces ∧
      ∃ later, ((HedgeRun.start openedHedge).callAll
        (calls ++ [.fill fill .published])).store.memory.hedgeIntents.get? k = some later ∧
        later.status ≠ .blocked) ∧
    (∃ calls intent,
      (∀ c ∈ calls, (∃ k positions, c = .next k positions .published .published) ∨
        (∃ k order, c = .bind k order .published) ∨ ∃ fill, c = .fill fill .published) ∧
      ((HedgeRun.start openedHedge).callAll calls).store.memory.hedgeIntents.get? k = some intent ∧
      LegsFilled openedHedge ((HedgeRun.start openedHedge).callAll calls).received k intent ∧
      intent.status ≠ .completed) := by
  refine ⟨"hedge-d31eeeaaf150156a8ad133b4", ?_, ?_⟩
  · have before : (((HedgeRun.start openedHedge).callAll
        boundClose).store.memory.hedgeIntents.get? "hedge-d31eeeaaf150156a8ad133b4").any
          fun i => i.hedgeClientOrderId = some "H-1" ∧ i.hedgeLegFilledOunces = 0 ∧
            (i.hedgePlan[i.hedgeLegIndex]?).any (·.quantityOunces = 2) := by
      decide +kernel
    have after : (((HedgeRun.start openedHedge).callAll (boundClose ++
        [.fill ⟨"H-1", "D-1", 0⟩ .published])).store.memory.hedgeIntents.get?
          "hedge-d31eeeaaf150156a8ad133b4").any (·.status ≠ .blocked) := by
      decide +kernel
    obtain ⟨intent, found, facts⟩ := (Option.any_eq_true _ _).1 before
    obtain ⟨later, stored, unheld⟩ := (Option.any_eq_true _ _).1 after
    simp only [decide_eq_true_eq] at facts unheld
    obtain ⟨bound, unfilled, leg_any⟩ := facts
    obtain ⟨leg, leg_at, two⟩ := (Option.any_eq_true _ _).1 leg_any
    simp only [decide_eq_true_eq] at two
    refine ⟨boundClose, intent, leg, ⟨"H-1", "D-1", 0⟩, found, bound, leg_at, ?_, later, stored,
      unheld⟩
    rw [two, unfilled]
    norm_num
  · let drifted := boundClose ++ [
      .next "hedge-d31eeeaaf150156a8ad133b4" [] .published .published,
      .fill ⟨"H-1", "D-1", 2⟩ .published]
    have after : (((HedgeRun.start openedHedge).callAll drifted).store.memory.hedgeIntents.get?
        "hedge-d31eeeaaf150156a8ad133b4").any fun i => i.status = .blocked ∧
          i.hedgePlan.map (·.quantityOunces) = [2] ∧ i.hedgeLegOrderIds = ["H-1"] := by
      decide +kernel
    obtain ⟨intent, found, facts⟩ := (Option.any_eq_true _ _).1 after
    simp only [decide_eq_true_eq] at facts
    obtain ⟨blocked, plan, orders⟩ := facts
    refine ⟨drifted, intent, by simp [drifted, boundClose], found,
      legsFilled_single ⟨"H-1", "D-1", 2⟩ plan orders (by decide +kernel), ?_⟩
    rw [blocked]
    nofun

/-- Every hedge run over a reopened store: what it leaves is lawful, and a planned intent that
nothing disturbed completes once each of its legs is filled. -/
theorem hedge_plan_run {digest : String → String} {s : StoreState}
    (opened : Reachable digest ⟨s, s⟩) (calls : List HedgeCall) :
    ((HedgeRun.start s).callAll calls).Lawful s ∧
    ∀ k intent, (∀ first ∈ s.hedgeIntents.get? k, ¬first.status.Unresolved) →
      (HedgeRun.start s).Undisturbed k calls →
      ((HedgeRun.start s).callAll calls).store.memory.hedgeIntents.get? k = some intent →
      intent.hedgePlan ≠ [] →
      LegsFilled s ((HedgeRun.start s).callAll calls).received k intent →
      intent.status = .completed := by
  have first : RunState s [] s :=
    ⟨reachable_index opened, (reachable_laid opened).1, Logbook.opened s⟩
  have start : HedgeRun.Keeps s (HedgeRun.start s) := ⟨first, first⟩
  have kept := start.callAll calls
  refine ⟨kept.1.lawful, fun k intent resolved quiet found planned filled => ?_⟩
  have clear : Explained s [] k s := fun intent found unresolved =>
    absurd unresolved (resolved intent found)
  exact kept.1.completes found planned (start.undisturbedAll ⟨clear, clear⟩ quiet) filled

/-- The close leg is planned, bound, accepted and filled, and its intent is completed. -/
theorem closed_leg_completes : ∃ intent, ((HedgeRun.start openedHedge).callAll (boundClose ++
    [.status "H-1" .accepted none .published (.inr (.inl rfl)),
      .fill ⟨"H-1", "D-1", 2⟩ .published])).store.memory.hedgeIntents.get?
        "hedge-d31eeeaaf150156a8ad133b4" = some intent ∧ intent.status = .completed := by
  have after : (((HedgeRun.start openedHedge).callAll (boundClose ++
      [.status "H-1" .accepted none .published (.inr (.inl rfl)),
        .fill ⟨"H-1", "D-1", 2⟩ .published])).store.memory.hedgeIntents.get?
          "hedge-d31eeeaaf150156a8ad133b4").any fun i =>
            i.hedgePlan.map (·.quantityOunces) = [2] ∧ i.hedgeLegOrderIds = ["H-1"] := by
    decide +kernel
  obtain ⟨intent, found, facts⟩ := (Option.any_eq_true _ _).1 after
  simp only [decide_eq_true_eq] at facts
  obtain ⟨plan, orders⟩ := facts
  refine ⟨intent, found, (hedge_plan_run openedHedge_reachable _).2
    "hedge-d31eeeaaf150156a8ad133b4" intent ?_ ?_ found ?_ ?_⟩
  · have pending : (openedHedge.hedgeIntents.get? "hedge-d31eeeaaf150156a8ad133b4").all
        fun i => ¬i.status.Unresolved := by decide +kernel
    intro first at'
    rw [Option.mem_def] at at'
    rw [at'] at pending
    simpa using pending
  · have served : (openedHedge.hedgeIntents.get? "hedge-d31eeeaaf150156a8ad133b4").all fun i =>
        ((HedgeRun.start openedHedge).store.tryNextLeg i openTicket .published).1.toBool := by
      decide +kernel
    have bound : (((HedgeRun.start openedHedge).callAll
        boundClose).store.memory.hedgeIntents.get? "hedge-d31eeeaaf150156a8ad133b4").all
          fun i => ¬isRejectedAttempt i "H-1" := by
      decide +kernel
    have accepted : (((HedgeRun.start openedHedge).callAll (boundClose ++
        [.status "H-1" .accepted none .published (.inr (.inl rfl))])).store.memory.hedgeIntents.get?
          "hedge-d31eeeaaf150156a8ad133b4").all fun i => ¬isRejectedAttempt i "H-1" := by
      decide +kernel
    refine ⟨?_, id, ?_, ?_, trivial⟩
    · rintro ⟨-, intent, e, at', -, failed, -⟩
      have ok := (Option.all_eq_true _ _).1 served intent at'
      rw [failed] at ok
      cases ok
    · rintro ⟨intent, at', ⟨-, bad | bad⟩ | ⟨archived, -⟩⟩
      · cases bad
      · cases bad
      · exact of_decide_eq_true ((Option.all_eq_true _ _).1 bound intent at') archived
    · rintro ⟨intent, at', archived⟩
      exact of_decide_eq_true ((Option.all_eq_true _ _).1 accepted intent at') archived
  · rintro empty
    simp [empty] at plan
  · exact legsFilled_single ⟨"H-1", "D-1", 2⟩ plan orders (by decide +kernel)

end ArbNautilus.Store
