import ArbNautilus.Store.Run

namespace ArbNautilus.Store

open Base

/-- No order identity is lost or shared: an intent is stored under its own identity, its
current order is in its history, and no two histories meet. -/
structure OrderIndex (d : Dict String HedgeIntent) : Prop where
  keyed : ∀ k intent, d.get? k = some intent → intent.intentId = k
  current : ∀ k intent order, d.get? k = some intent →
    intent.hedgeClientOrderId = some order → order ∈ intent.hedgeOrderIds
  owner : ∀ k k' intent other order, d.get? k = some intent → d.get? k' = some other →
    order ∈ intent.hedgeOrderIds → order ∈ other.hedgeOrderIds → k = k'

theorem OrderIndex.empty : OrderIndex .empty := ⟨by simp, by simp, by simp⟩

/-- A replacement that keeps the histories apart keeps the index. -/
theorem OrderIndex.set {d : Dict String HedgeIntent} (h : OrderIndex d) {k : String}
    {replaced : HedgeIntent} (keyed : replaced.intentId = k)
    (current : ∀ order, replaced.hedgeClientOrderId = some order →
      order ∈ replaced.hedgeOrderIds)
    (apart : ∀ k' other order, d.get? k' = some other → order ∈ replaced.hedgeOrderIds →
      order ∈ other.hedgeOrderIds → k' = k) : OrderIndex (d.set k replaced) := by
  refine ⟨fun k' intent found => ?_, fun k' intent order found bound => ?_,
    fun k₁ k₂ intent other order first second mine yours => ?_⟩
  · rw [Dict.get?_set] at found
    split at found
    · rename_i same
      obtain rfl := Option.some.inj found
      exact keyed.trans same
    · exact h.keyed k' intent found
  · rw [Dict.get?_set] at found
    split at found
    · obtain rfl := Option.some.inj found
      exact current order bound
    · exact h.current k' intent order found bound
  · rw [Dict.get?_set] at first second
    split at first
    · rename_i same
      obtain rfl := Option.some.inj first
      split at second
      · rename_i also
        exact same.symm.trans also
      · exact same.symm.trans (apart k₂ other order second mine yours).symm
    · split at second
      · rename_i same
        obtain rfl := Option.some.inj second
        exact (apart k₁ intent order first yours mine).trans same
      · exact h.owner k₁ k₂ intent other order first second mine yours

/-- What a status change or a fill keeps of an intent's orders. -/
structure SameOrders (intent replaced : IntentFields) : Prop where
  intentId : replaced.intentId = intent.intentId
  history : replaced.hedgeOrderIds = intent.hedgeOrderIds
  current : replaced.hedgeClientOrderId = intent.hedgeClientOrderId ∨
    replaced.hedgeClientOrderId = none

theorem OrderIndex.replace {d : Dict String HedgeIntent} (h : OrderIndex d) {k : String}
    {intent replaced : HedgeIntent} (found : d.get? k = some intent)
    (same : SameOrders intent.toIntentFields replaced.toIntentFields) :
    OrderIndex (d.set intent.intentId replaced) := by
  have key := h.keyed k intent found
  rw [key]
  refine h.set (same.intentId.trans key) (fun order bound => ?_)
    (fun k' other order present mine yours => ?_)
  · rw [same.history]
    obtain kept | gone := same.current
    · exact h.current k intent order found (kept ▸ bound)
    · rw [gone] at bound; cases bound
  · rw [same.history] at mine
    exact (h.owner k k' intent other order found present mine yours).symm

theorem ids_of_keyed {d : Dict String HedgeIntent}
    (keyed : ∀ k intent, d.get? k = some intent → intent.intentId = k) :
    d.values.map (·.intentId) = d.keys := by
  simp only [Dict.values, Dict.keys, List.map_map]
  apply List.map_congr_left
  rintro ⟨k, intent⟩ member
  exact keyed k intent ((d.mem_entries_iff k intent).1 member)

/-- The stored intents are distinct, so a loop over some of them meets each one unchanged. -/
theorem mapIntents_of_keyed {f : HedgeIntent → Except Raised HedgeIntent} {P : StoreState → Prop}
    {intents : List HedgeIntent} {s t : StoreState}
    (step : ∀ u intent replaced, intent ∈ intents → P u →
      u.hedgeIntents.get? intent.intentId = some intent → f intent = .ok replaced →
      P (u.setIntent intent.intentId replaced))
    (keyed : ∀ k intent, s.hedgeIntents.get? k = some intent → intent.intentId = k) (h : P s)
    (part : intents.Sublist s.hedgeIntents.values)
    (mapped : StoreState.mapIntents f s intents = .ok t) : P t := by
  refine StoreState.mapIntents_invariant step h ?_ (fun intent member => ?_) mapped
  · exact (part.map _).nodup (ids_of_keyed keyed ▸ s.hedgeIntents.nodup)
  · obtain ⟨k, found⟩ := (Dict.mem_values_iff _ _).1 (part.subset member)
    rwa [keyed k intent found]

theorem OrderIndex.mapValues {f : HedgeIntent → Except Raised HedgeIntent}
    (same : ∀ intent replaced, f intent = .ok replaced →
      SameOrders intent.toIntentFields replaced.toIntentFields)
    {intents : List HedgeIntent} {s t : StoreState} (h : OrderIndex s.hedgeIntents)
    (part : intents.Sublist s.hedgeIntents.values)
    (mapped : StoreState.mapIntents f s intents = .ok t) : OrderIndex t.hedgeIntents :=
  mapIntents_of_keyed (P := fun u => OrderIndex u.hedgeIntents)
    (fun _ intent replaced _ index found made => index.replace found (same intent replaced made))
    h.keyed h part mapped

theorem markUnknown_orders {intent replaced : HedgeIntent}
    (h : StoreState.markUnknown intent = .ok replaced) :
    SameOrders intent.toIntentFields replaced.toIntentFields := by
  rw [IntentFields.make_eq_ok h]
  exact ⟨rfl, rfl, .inl rfl⟩

theorem archiveRejected_orders {target : Option String} {intent replaced : HedgeIntent}
    (h : StoreState.archiveRejected target intent = .ok replaced) :
    SameOrders intent.toIntentFields replaced.toIntentFields := by
  unfold StoreState.archiveRejected at h
  split at h
  · simp only [Except.ok.injEq] at h
    exact h ▸ ⟨rfl, rfl, .inl rfl⟩
  · split at h
    · rw [bind_unit_eq_ok] at h
      obtain ⟨-, h⟩ := h
      dsimp only at h
      split at h
      · rw [IntentFields.make_eq_ok h]
        exact ⟨rfl, rfl, .inr rfl⟩
      · simp at h
    · simp only [Except.ok.injEq] at h
      exact h ▸ ⟨rfl, rfl, .inl rfl⟩

theorem settleIntent_orders {target : Option String} {intent replaced : HedgeIntent}
    (h : StoreState.settleIntent target intent = .ok replaced) :
    SameOrders intent.toIntentFields replaced.toIntentFields := by
  simp only [StoreState.settleIntent, bind_eq_ok] at h
  obtain ⟨archived, step, h⟩ := h
  have before := archiveRejected_orders step
  split at h
  · rw [IntentFields.make_eq_ok h]
    exact ⟨before.intentId, before.history, .inr rfl⟩
  · rw [IntentFields.make_eq_ok h]
    exact ⟨before.intentId, before.history, before.current⟩

theorem openHedgeIntent_index {digest : String → String} {s t : StoreState}
    {record : SourceOrderRecord} {fill : SourceFill} {blockedReason : Option String} {rounded : ℤ}
    {opened : Option HedgeIntent} (index : OrderIndex s.hedgeIntents)
    (h : s.openHedgeIntent digest record fill blockedReason rounded = .ok (t, opened)) :
    OrderIndex t.hedgeIntents := by
  obtain ⟨-, rfl, -⟩ | ⟨-, intent, fields, -, rfl⟩ := StoreState.openHedgeIntent_eq_ok h
  · exact index
  · have unbound : intent.hedgeClientOrderId = none := by rw [fields]; rfl
    have blank : intent.hedgeOrderIds = [] := by rw [fields]; rfl
    refine index.set rfl (fun order bound => ?_) (fun _ _ _ _ mine _ => ?_)
    · rw [unbound] at bound; cases bound
    · rw [blank] at mine; cases mine

theorem applySourceFill_index {digest : String → String} {s t : StoreState} {fill : SourceFill}
    {blockedReason : Option String} {opened : Option HedgeIntent}
    (index : OrderIndex s.hedgeIntents)
    (h : s.applySourceFill digest fill blockedReason = .ok (t, opened)) :
    OrderIndex t.hedgeIntents := by
  unfold StoreState.applySourceFill at h
  split at h
  · cases h; exact index
  · split at h
    · cases h; exact index
    · simp only [bind_eq_ok] at h
      obtain ⟨recorded, record, h⟩ := h
      obtain ⟨-, -, -, -, -, intents, -⟩ := StoreState.recordSourceFill_eq_ok record
      refine openHedgeIntent_index (s := (recorded.allocateSourceFill fill.signedFill).1) ?_ h
      change OrderIndex recorded.hedgeIntents
      rw [intents]
      exact index

theorem applyFill_index {s t : StoreState} {fill : HedgeFill} {blockedReason : Option String}
    {changed : Bool} (index : OrderIndex s.hedgeIntents)
    (h : s.applyFill fill blockedReason = .ok (t, changed)) : OrderIndex t.hedgeIntents := by
  obtain ⟨rfl, -⟩ | ⟨intent, blocked, -, found, -, fields, rfl⟩ |
    ⟨intent, advanced, -, found, -, positive, fields, -, rfl⟩ := StoreState.applyFill_eq_ok h
  · exact index
  · obtain ⟨-, k, stored⟩ := StoreState.intentForHedgeOrder_eq_some found
    exact index.replace stored (fields ▸ ⟨rfl, rfl, .inl rfl⟩)
  · obtain ⟨-, k, stored⟩ := StoreState.intentForHedgeOrder_eq_some found
    obtain ⟨id, -, -, -, history, -, current⟩ :=
      (StoreState.advanceFields_advance intent positive s.haltReason blockedReason).frame
    exact index.replace stored (fields ▸ ⟨id, history, current⟩)

theorem bindHedgeOrder_index {s t : StoreState} {intentId clientOrderId : String}
    (index : OrderIndex s.hedgeIntents)
    (h : (s.bindHedgeOrder intentId clientOrderId).Yields t) : OrderIndex t.hedgeIntents := by
  obtain ⟨intent, bound, found, -, -, -, fresh, fields, rfl⟩ :=
    StoreState.bindHedgeOrder_yields h
  have history : bound.hedgeOrderIds = intent.hedgeOrderIds ++ [clientOrderId] := by rw [fields]
  have current : bound.hedgeClientOrderId = some clientOrderId := by rw [fields]
  have id : bound.intentId = intent.intentId := by rw [fields]
  refine index.set (id.trans (index.keyed _ _ found)) (fun order is_bound => ?_)
    (fun k' other order present mine yours => ?_)
  · rw [current] at is_bound
    simp [history, (Option.some.inj is_bound).symm]
  · rw [history, List.mem_append, List.mem_singleton] at mine
    rcases mine with mine | rfl
    · exact (index.owner _ _ intent other order found present mine yours).symm
    · exact absurd yours (fresh other ((Dict.mem_values_iff _ _).2 ⟨k', present⟩)).2

theorem recoverForStart_index {s t : StoreState} (index : OrderIndex s.hedgeIntents)
    (h : s.recoverForStart.Yields t) : OrderIndex t.hedgeIntents := by
  obtain ⟨orders, v, halt, -, mapped, rfl⟩ := StoreState.recoverForStart_yields h
  have kept := OrderIndex.mapValues (s := { s with sourceOrders := orders })
    (fun _ _ => markUnknown_orders) index (List.filter_sublist.trans List.filter_sublist) mapped
  exact kept

theorem change_index {digest : String → String} {s t : StoreState} {op : StoreOp}
    (index : OrderIndex s.hedgeIntents) (h : (op.change digest s).Yields t) :
    OrderIndex t.hedgeIntents := by
  cases op with
  | freezeSourceSubmissions =>
    simp only [StoreOp.change, StoreState.freezeSourceSubmissions] at h
    split_ifs at h <;> simp at h
    exact h ▸ index
  | clearSourceFreeze =>
    simp only [StoreOp.change, StoreState.clearSourceFreeze] at h
    split_ifs at h <;> simp at h
    exact h ▸ index
  | recoverForStart => exact recoverForStart_index index (by simpa [StoreOp.change] using h)
  | beginSource =>
    simp only [StoreOp.change, StoreState.beginSource] at h
    split at h <;> simp at h
    exact h ▸ index
  | updateSourceStatus =>
    simp only [StoreOp.change, StoreState.updateSourceStatus] at h
    split at h <;> simp at h
    exact h ▸ index
  | confirmSourceReconciled =>
    simp only [StoreOp.change, StoreState.confirmSourceReconciled] at h
    split at h
    · simp at h
    · split_ifs at h <;> simp at h
      exact h ▸ index
  | markSourceUnknown =>
    simp only [StoreOp.change, StoreState.markSourceUnknown, Change.yields_publishes] at h
    exact h ▸ index
  | reserveSourceFill fill =>
    simp only [StoreOp.change, Change.discard_yields, StoreState.reserveSourceFill] at h
    split at h
    · simp at h
    · split at h
      · simp at h
      · rename_i applied
        rw [Change.yields_reserves] at h
        exact h ▸ applySourceFill_index index applied
  | bindHedgeOrder => exact bindHedgeOrder_index index h
  | bindHedgePlan =>
    rw [StoreOp.change, Change.discard_yields] at h
    obtain ⟨intent, planned, found, -, -, -, -, -, fields, rfl⟩ :=
      StoreState.bindHedgePlan_yields h
    have same : SameOrders intent.toIntentFields planned.toIntentFields :=
      fields ▸ ⟨rfl, rfl, .inl rfl⟩
    have replaced := index.replace found same
    rwa [index.keyed _ _ found] at replaced
  | blockHedgeIntent =>
    obtain ⟨intent, blocked, found, -, fields, rfl⟩ := StoreState.blockHedgeIntent_yields h
    have same : SameOrders intent.toIntentFields blocked.toIntentFields :=
      fields ▸ ⟨rfl, rfl, .inl rfl⟩
    have replaced := index.replace found same
    rwa [index.keyed _ _ found] at replaced
  | updateHedgeStatus =>
    obtain ⟨intent, updated, found, intents, -, -, -, -, how⟩ :=
      StoreState.updateHedgeStatus_yields h
    obtain ⟨-, k, stored⟩ := StoreState.intentForHedgeOrder_eq_some found
    rw [intents]
    obtain ⟨-, -, fields⟩ | ⟨-, -, -, fields⟩ := how
    · exact index.replace stored (fields ▸ ⟨rfl, rfl, .inl rfl⟩)
    · exact index.replace stored (fields ▸ ⟨rfl, rfl, .inl rfl⟩)
  | applyHedgeFill =>
    rw [StoreOp.change, Change.discard_yields] at h
    exact applyFill_index index (StoreState.applyHedgeFill_yields h).2
  | projectSourceFills reason fills =>
    simp only [StoreOp.change, StoreState.projectSourceFills] at h
    split at h
    · simp at h
    · rename_i applied
      rw [Change.yields_reserves] at h
      subst h
      refine foldlM_invariant (P := fun u => OrderIndex u.hedgeIntents)
        (fun u fill v kept turn => ?_) index applied
      obtain ⟨⟨v', opened⟩, added, rfl⟩ := map_eq_ok.1 turn
      exact applySourceFill_index kept added
  | projectHedgeFills reason fills =>
    simp only [StoreOp.change, StoreState.projectHedgeFills] at h
    split at h
    · simp at h
    · rename_i applied
      rw [Change.yields_reserves] at h
      subst h
      refine foldlM_invariant (P := fun u => OrderIndex u.hedgeIntents)
        (fun u fill v kept turn => ?_) index applied
      obtain ⟨⟨v', changed⟩, added, rfl⟩ := map_eq_ok.1 turn
      exact applyFill_index kept added
  | settleCompleted target native =>
    simp only [StoreOp.change, StoreState.settleCompleted] at h
    split at h
    · simp at h
    · rename_i settled
      rw [Change.yields_reserves] at h
      subst h
      have kept := index.mapValues (fun _ _ => settleIntent_orders) (List.Sublist.refl _) settled
      exact kept

theorem OrderIndex.recorded {d : Dict String HedgeIntent} (h : OrderIndex d) {k order : String}
    {intent : HedgeIntent} (found : d.get? k = some intent)
    (known : intent.hedgeClientOrderId = some order ∨ isRejectedAttempt intent order) :
    order ∈ intent.hedgeOrderIds := by
  obtain current | ⟨attempt, archived, rfl⟩ := known
  · exact h.current k intent order found current
  · exact (intent.sound.attempt attempt archived).retained

theorem reachable_index {digest : String → String} {store : JsonStateStore}
    (h : Reachable digest store) : OrderIndex store.memory.hedgeIntents :=
  (h.invariant (P := fun s => OrderIndex s.hedgeIntents) .empty
    fun _ _ _ index step => change_index index step).1

/-- The call grows the intent's fill or leaves a halt; only a failed publication may raise. -/
def FillTakesEffect (store : JsonStateStore) (pub : Publication) (fill : HedgeFill) (k : String)
    (intent : HedgeIntent) : Prop :=
  match store.commit pub (store.memory.applyHedgeFill fill) with
  | (.ok _, after) =>
    (∃ grown, after.memory.hedgeIntents.get? k = some grown ∧
      grown.hedgeFilledOunces = intent.hedgeFilledOunces + fill.fillOunces) ∨
    after.memory.haltReason ≠ none
  | (.error e, _) => e = .osError ∨ e = .parentDirectorySyncError

theorem effect_of_reserves {store : JsonStateStore} {pub : Publication} {fill : HedgeFill}
    {k : String} {intent : HedgeIntent} {t : StoreState}
    (reserves : store.memory.applyHedgeFill fill = .reserves t true)
    (effect : (∃ grown, t.hedgeIntents.get? k = some grown ∧
      grown.hedgeFilledOunces = intent.hedgeFilledOunces + fill.fillOunces) ∨
      t.haltReason ≠ none) : FillTakesEffect store pub fill k intent := by
  unfold FillTakesEffect
  rw [reserves]
  cases pub
  · exact effect
  · exact .inl rfl
  · exact .inr rfl

theorem effect_of_keeps {store : JsonStateStore} {pub : Publication} {fill : HedgeFill}
    {k : String} {intent : HedgeIntent} (found : store.memory.hedgeIntents.get? k = some intent)
    (positive : 0 < fill.fillOunces)
    (keeps : store.memory.applyHedgeFill fill = .keeps false) :
    FillTakesEffect store pub fill k intent ↔ store.memory.haltReason ≠ none := by
  unfold FillTakesEffect
  rw [keeps]
  constructor
  · rintro (⟨grown, same, filled⟩ | halted)
    · rw [found] at same
      obtain rfl := Option.some.inj same
      linarith
    · exact halted
  · exact .inr

theorem archived_fill_effect {store : JsonStateStore} {pub : Publication} {fill : HedgeFill}
    {k : String} {intent : HedgeIntent} (found : store.memory.hedgeIntents.get? k = some intent)
    (unseen : fill.fillKey ∉ store.memory.seenHedgeFills) (positive : 0 < fill.fillOunces)
    (lookup : store.memory.intentForHedgeOrder fill.clientOrderId = some intent)
    (archived : isRejectedAttempt intent fill.clientOrderId) :
    FillTakesEffect store pub fill k intent := by
  obtain ⟨t, changed, held, unchanged⟩ :=
    store.memory.holdRejectedAttempt_total intent fill.clientOrderId "late fill"
  have applied : store.memory.applyHedgeFill fill =
      if changed then .reserves t true else .keeps false := by
    simp [StoreState.applyHedgeFill, StoreState.applyFill, unseen, lookup, archived, held]
  cases changed with
  | true =>
    obtain ⟨blocked, -, rfl⟩ := StoreState.holdRejectedAttempt_eq_ok held
    exact effect_of_reserves applied (.inr (by simp))
  | false =>
    refine (effect_of_keeps found positive applied).2 ?_
    rw [unchanged rfl]
    simp

/-- A positive fill of a current order always lands. -/
theorem applyHedgeFill_current {s : StoreState} {fill : HedgeFill} {intent : HedgeIntent}
    (unseen : fill.fillKey ∉ s.seenHedgeFills) (positive : 0 < fill.fillOunces)
    (lookup : s.intentForHedgeOrder fill.clientOrderId = some intent)
    (current : ¬isRejectedAttempt intent fill.clientOrderId) :
    ∃ advanced : HedgeIntent,
      advanced.toIntentFields = (StoreState.advanceFields intent fill s.haltReason none).1 ∧
      s.applyHedgeFill fill = .reserves { s.setIntent intent.intentId advanced with
        seenHedgeFills := insert fill.fillKey s.seenHedgeFills
        haltReason := (StoreState.advanceFields intent fill s.haltReason none).2 } true := by
  have bound : intent.hedgeClientOrderId ≠ none := by
    obtain ⟨known | archived, -⟩ := StoreState.intentForHedgeOrder_eq_some lookup
    · simp [known]
    · exact absurd archived current
  have advance := StoreState.advanceFields_advance intent positive s.haltReason none
  obtain ⟨advanced, made, fields⟩ := (advance.sound positive bound).make
  have checked : raiseIf (fill.fillOunces ≤ 0)
      (Raised.valueError "hedge fill quantity must be positive") = .ok () := by
    simpa using positive
  refine ⟨advanced, fields, ?_⟩
  simp only [StoreState.applyHedgeFill, StoreState.applyFill, unseen, lookup, current, checked,
    made, if_false, false_or, reduceCtorEq]
  rfl

theorem current_fill_effect {store : JsonStateStore} {pub : Publication} {fill : HedgeFill}
    {k : String} {intent : HedgeIntent} (index : OrderIndex store.memory.hedgeIntents)
    (found : store.memory.hedgeIntents.get? k = some intent)
    (unseen : fill.fillKey ∉ store.memory.seenHedgeFills) (positive : 0 < fill.fillOunces)
    (lookup : store.memory.intentForHedgeOrder fill.clientOrderId = some intent)
    (current : ¬isRejectedAttempt intent fill.clientOrderId) :
    FillTakesEffect store pub fill k intent := by
  obtain ⟨advanced, fields, applied⟩ := applyHedgeFill_current unseen positive lookup current
  have advance := StoreState.advanceFields_advance intent positive store.memory.haltReason none
  refine effect_of_reserves applied (.inl ⟨advanced, ?_, fields ▸ advance.filled⟩)
  simp [StoreState.setIntent, index.keyed k intent found]

/-- One source fill of two ounces, hedged by one planned leg that its first trade completes. -/
def completedLeg : List StoreOp := [
  .beginSource { clientOrderId := "O-1", side := .buy, quantityOunces := 2 },
  .reserveSourceFill ⟨"O-1|V-1|T-1", "O-1", "T-1", .buy, 2⟩,
  .bindHedgePlan "hedge-d31eeeaaf150156a8ad133b4"
    [⟨{ side := .sell, quantityOunces := 2 }, by decide +kernel⟩],
  .bindHedgeOrder "hedge-d31eeeaaf150156a8ad133b4" "H-1",
  .applyHedgeFill ⟨"H-1", "D-1", 2⟩]

/-- A fill of an order that its intent keeps, once the leg is complete, finds no intent. -/
theorem late_fill_dropped : ∃ store fill k intent,
    Reachable (fun _ => "d31eeeaaf150156a8ad133b4") store ∧
    store.memory.hedgeIntents.get? k = some intent ∧ fill.clientOrderId ∈ intent.hedgeOrderIds ∧
    fill.fillKey ∉ store.memory.seenHedgeFills ∧ 0 < fill.fillOunces ∧
    ¬FillTakesEffect store .published fill k intent := by
  let store := JsonStateStore.empty.run (fun _ => "d31eeeaaf150156a8ad133b4") completedLeg
  let late : HedgeFill := ⟨"H-1", "D-2", 1⟩
  have stored : (store.memory.hedgeIntents.get? "hedge-d31eeeaaf150156a8ad133b4").isSome := by
    decide +kernel
  obtain ⟨intent, found⟩ := Option.isSome_iff_exists.1 stored
  have occurs : "H-1" ∈ (store.memory.hedgeIntents.get? "hedge-d31eeeaaf150156a8ad133b4").elim []
      (·.hedgeOrderIds) := by decide +kernel
  have missed : store.memory.intentForHedgeOrder "H-1" = none := by decide +kernel
  have running : store.memory.haltReason = none := by decide +kernel
  rw [found] at occurs
  refine ⟨store, late, _, intent, Reachable.start.run completedLeg, found, occurs,
    by decide +kernel, by decide +kernel, fun effect => ?_⟩
  have keeps : store.memory.applyHedgeFill late = .keeps false := by
    simp [StoreState.applyHedgeFill, late, missed]
  exact (effect_of_keeps found (by decide +kernel) keeps).1 effect running

/-- A late fill takes effect exactly when the store is already halted or its order is
the intent's current or archived one: the lookup misses every completed leg. -/
theorem late_fill_effect_iff {digest : String → String} {store : JsonStateStore}
    (reach : Reachable digest store) (pub : Publication) {fill : HedgeFill} {k : String}
    {intent : HedgeIntent} (found : store.memory.hedgeIntents.get? k = some intent)
    (occurs : fill.clientOrderId ∈ intent.hedgeOrderIds)
    (unseen : fill.fillKey ∉ store.memory.seenHedgeFills) (positive : 0 < fill.fillOunces) :
    FillTakesEffect store pub fill k intent ↔
      store.memory.haltReason ≠ none ∨ intent.hedgeClientOrderId = some fill.clientOrderId ∨
        isRejectedAttempt intent fill.clientOrderId := by
  have index := reachable_index reach
  cases lookup : store.memory.intentForHedgeOrder fill.clientOrderId with
  | none =>
    have absent := StoreState.intentForHedgeOrder_eq_none.1 lookup k intent found
    have keeps : store.memory.applyHedgeFill fill = .keeps false := by
      simp [StoreState.applyHedgeFill, lookup]
    rw [effect_of_keeps found positive keeps]
    simp [absent]
  | some hit =>
    obtain ⟨known, k', stored⟩ := StoreState.intentForHedgeOrder_eq_some lookup
    obtain rfl : k' = k :=
      index.owner k' k hit intent _ stored found (index.recorded stored known) occurs
    obtain rfl : hit = intent := Option.some.inj (stored.symm.trans found)
    by_cases archived : isRejectedAttempt hit fill.clientOrderId
    · exact iff_of_true (archived_fill_effect found unseen positive lookup archived)
        (.inr (.inr archived))
    · exact iff_of_true (current_fill_effect index found unseen positive lookup archived)
        (.inr known)

theorem bound_fill_effect : ∃ intent,
    (JsonStateStore.empty.run (fun _ => "d31eeeaaf150156a8ad133b4")
      (completedLeg.take 4)).memory.hedgeIntents.get? "hedge-d31eeeaaf150156a8ad133b4" =
        some intent ∧
    FillTakesEffect (JsonStateStore.empty.run (fun _ => "d31eeeaaf150156a8ad133b4")
      (completedLeg.take 4)) .published ⟨"H-1", "D-1", 2⟩ "hedge-d31eeeaaf150156a8ad133b4"
      intent := by
  have stored : ((JsonStateStore.empty.run (fun _ => "d31eeeaaf150156a8ad133b4")
      (completedLeg.take 4)).memory.hedgeIntents.get? "hedge-d31eeeaaf150156a8ad133b4").any
        fun intent => intent.hedgeOrderIds = ["H-1"] ∧ intent.hedgeClientOrderId = some "H-1" := by
    decide +kernel
  obtain ⟨intent, found, facts⟩ := (Option.any_eq_true _ _).1 stored
  simp only [decide_eq_true_eq] at facts
  refine ⟨intent, found, Iff.mpr (late_fill_effect_iff (Reachable.start.run _) .published found
    ?_ ?_ ?_) (.inr (.inl facts.2))⟩
  · simp [facts.1]
  · decide +kernel
  · decide +kernel

end ArbNautilus.Store
