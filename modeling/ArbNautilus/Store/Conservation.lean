import ArbNautilus.Store.Tally

namespace ArbNautilus.Store

open Base

namespace OwnerConfig

/-- Every view's intents for one fill. -/
def intentsOf (cfg : OwnerConfig) (b : Book) (fillKey : String) : List HedgeIntent :=
  cfg.viewKeys.flatMap fun v => (b.views v).hedgeIntents.values.filter (·.fillKey = fillKey)

/-- Every ounce of the owner is accounted for, whichever view holds it. -/
structure Conserved (cfg : OwnerConfig) (b : Book) : Prop where
  net : (cfg.viewKeys.map (cfg.viewNetUnhedged b)).sum =
    (cfg.viewKeys.map fun v => (b.views v).sourceOrders.total Ledger.signedFilled).sum -
      (cfg.viewKeys.map fun v => (b.views v).hedgeIntents.total Ledger.signedHedged).sum
  once : ∀ r balance, (cfg.routeBalances b).get? r = some balance →
    cfg.viewKeys.count balance.2 = 1
  residuals : (cfg.viewKeys.map (cfg.viewResidual b)).sum = (cfg.routeBalances b).total Prod.fst
  replay : ∀ r, cfg.residual b r = carryAll (cfg.openingBalance r) (routeFills b.allocations r)
  small : ∀ r, cfg.checkpointBalances.get? r = none → |cfg.residual b r| ≤ 1 / 2
  owned : ∀ item ∈ b.allocations, item.allocatedOunces ≠ 0 →
    ∃ intent, cfg.intentsOf b item.fillKey = [intent] ∧
      intent.hedgeQuantityOunces = |item.allocatedOunces| ∧
      (intent.hedgeSide = .sell ↔ 0 < item.allocatedOunces)
  unowned : ∀ item ∈ b.allocations, item.allocatedOunces = 0 → cfg.intentsOf b item.fillKey = []

variable {cfg : OwnerConfig} {b : Book}

/-- What validation establishes, before any sum is taken. -/
structure Audited (cfg : OwnerConfig) (b : Book) (t : Tally) : Prop where
  recorded : Recorded cfg b
  entries : (cfg.intentsByFill b).entries = cfg.viewKeys.flatMap fun v =>
    (b.views v).hedgeIntents.values.map fun intent => (intent.fillKey, intent)
  walked : Walked cfg b cfg.legacyOrders b.allocations t
  spent : t.intents.entries = []
  totals : ∀ entry ∈ (cfg.records b).entries,
    (t.totals.get? entry.1).getD 0 = entry.2.filledOunces

/-- The walks that validation makes, and where they end. -/
structure Replayed (cfg : OwnerConfig) (b : Book) (checkpoint t : Tally) : Prop where
  recorded : Recorded cfg b
  entries : (cfg.intentsByFill b).entries = cfg.viewKeys.flatMap fun v =>
    (b.views v).hedgeIntents.values.map fun intent => (intent.fillKey, intent)
  legacy : Walked cfg b cfg.legacyOrders [] checkpoint
  allocations : b.allocations.foldlM (cfg.checkAllocation b) checkpoint = .ok t
  seen : t.allocated = cfg.seenFills b
  spent : t.intents.entries = []
  totals : ∀ entry ∈ (cfg.records b).entries,
    (t.totals.get? entry.1).getD 0 = entry.2.filledOunces

/-- An intent found by its identity is found by its fill. -/
theorem known_of_byId {id : String} {intent : HedgeIntent}
    (found : (Dict.ofList ((cfg.intentsByFill b).values.map fun intent =>
      (intent.intentId, intent))).get? id = some intent) :
    (cfg.intentsByFill b).get? intent.fillKey = some intent := by
  obtain ⟨other, member, same⟩ := List.mem_map.1 (Dict.mem_of_get?_ofList found)
  simp only [Prod.mk.injEq] at same
  obtain ⟨k, held⟩ := (Dict.mem_values_iff _ _).1 (same.2 ▸ member)
  rwa [fillKey_of_get? held]

theorem replayed_of_validate (valid : cfg.validate b = .ok ()) :
    ∃ checkpoint t, Replayed cfg b checkpoint t := by
  unfold validate at valid
  rw [bind_unit_eq_ok, bind_unit_eq_ok, bind_eq_ok] at valid
  obtain ⟨-, -, ids, viewed, valid⟩ := valid
  rw [bind_unit_eq_ok] at valid
  have recorded := recorded_of_loop viewed
  replace valid := valid.2
  unfold validateAllocations at valid
  rw [bind_unit_eq_ok, raiseIf_eq_ok, not_not] at valid
  obtain ⟨lengths, valid⟩ := valid
  simp only [bind_eq_ok, raiseIf_eq_ok, not_or, not_not] at valid
  obtain ⟨checkpoint, legacy, t, allocations, seen, spent, totals⟩ := valid
  have entries : (cfg.intentsByFill b).entries = cfg.viewKeys.flatMap fun v =>
      (b.views v).hedgeIntents.values.map fun intent => (intent.fillKey, intent) := by
    apply Dict.entries_ofList
    rw [intentsByFill] at lengths
    simpa [List.length_flatMap, Dict.values] using lengths
  have walked := walked_legacies recorded (fun _ _ => known_of_byId) (walked_opening cfg b) legacy
  exact ⟨checkpoint, t, recorded, entries, by simpa using walked, allocations, seen, spent,
    by simpa using totals⟩

theorem audited_of_validate (valid : cfg.validate b = .ok ()) : ∃ t, Audited cfg b t := by
  obtain ⟨checkpoint, t, replayed⟩ := replayed_of_validate valid
  have walked := walked_allocations replayed.legacy replayed.allocations
  exact ⟨t, replayed.recorded, replayed.entries, by simpa using walked, replayed.spent,
    replayed.totals⟩

variable {t : Tally}

/-- The source side of the books. -/
theorem Audited.sourced (h : Audited cfg b t) :
    (cfg.viewKeys.map fun v => (b.views v).sourceOrders.total Ledger.signedFilled).sum =
      (cfg.legacyOrders.map fun item => item.filledOunces * item.direction.sign).sum +
        (b.allocations.map (·.signedFillOunces)).sum := by
  rw [← h.walked.filled, ← h.recorded.total, signedTotals]
  congr 1
  apply List.map_congr_left
  intro entry member
  rw [Ledger.signedFilled, h.totals entry member]

/-- What the joint index of the intents sums to, view by view. -/
theorem Audited.total {M : Type} [AddCommGroup M] (h : Audited cfg b t) (f : HedgeIntent → M) :
    (cfg.intentsByFill b).total f =
      (cfg.viewKeys.map fun v => (b.views v).hedgeIntents.total f).sum := by
  unfold Dict.total
  rw [Dict.values, h.entries]
  induction cfg.viewKeys with
  | nil => rfl
  | cons v views ih =>
    rw [List.flatMap_cons, List.map_append, List.map_append, List.sum_append, ih, List.map_cons,
      List.sum_cons, List.map_map, List.map_map]
    rfl

/-- The hedge side: what the intents stand for was allocated. -/
theorem Audited.hedged (h : Audited cfg b t) :
    (cfg.viewKeys.map fun v => (b.views v).hedgeIntents.total Ledger.signedQuantity).sum =
      (cfg.legacyOrders.map (·.allocatedOunces)).sum +
        (b.allocations.map (·.allocatedOunces)).sum := by
  have spent : t.intents.total Ledger.signedQuantity = 0 := by
    simp [Dict.total, Dict.values, h.spent]
  rw [← h.total, ← h.walked.hedged, spent, zero_add]

/-- Each intent belongs to a legacy order or to an allocation of its own. -/
theorem Audited.counted (h : Audited cfg b t) :
    (cfg.viewKeys.map fun v => intentCount (b.views v).hedgeIntents).sum =
      (cfg.legacyOrders.map fun item => (item.intentIds.length : ℤ)).sum +
        owningCount b.allocations := by
  have spent : intentCount t.intents = 0 := by
    simp [intentCount, Dict.total, Dict.values, h.spent]
  have counted := h.walked.counted
  rw [spent, zero_add, intentCount, h.total] at counted
  exact counted.symm

theorem outstanding_eq (s : StoreState) : s.hedgeIntents.total StoreState.outstanding =
    s.hedgeIntents.total Ledger.signedQuantity - s.hedgeIntents.total Ledger.signedHedged := by
  rw [← Dict.total_sub]
  congr 1
  funext intent
  simp only [StoreState.outstanding, Ledger.signedQuantity, Ledger.signedHedged]
  ring

theorem Audited.net (h : Audited cfg b t) : (cfg.viewKeys.map (cfg.viewNetUnhedged b)).sum =
    (cfg.viewKeys.map fun v => (b.views v).sourceOrders.total Ledger.signedFilled).sum -
      (cfg.viewKeys.map fun v => (b.views v).hedgeIntents.total Ledger.signedHedged).sum := by
  have apart : ∀ views : List ViewKey, (views.map (cfg.viewNetUnhedged b)).sum =
      (views.map (cfg.viewResidual b)).sum +
        (views.map fun v => (b.views v).hedgeIntents.total Ledger.signedQuantity).sum -
        (views.map fun v => (b.views v).hedgeIntents.total Ledger.signedHedged).sum := by
    intro views
    induction views with
    | nil => simp
    | cons v views ih =>
      simp only [List.map_cons, List.sum_cons, ih, viewNetUnhedged, StoreState.netUnhedged,
        outstanding_eq]
      ring
  have legacy : (cfg.legacyOrders.map legacyNet).sum =
      (cfg.legacyOrders.map fun item => item.filledOunces * item.direction.sign).sum -
        (cfg.legacyOrders.map (·.allocatedOunces)).sum := by
    induction cfg.legacyOrders with
    | nil => simp
    | cons item items ih =>
      simp only [List.map_cons, List.sum_cons, ih, legacyNet]
      ring
  have allocations : (b.allocations.map allocationNet).sum =
      (b.allocations.map (·.signedFillOunces)).sum -
        (b.allocations.map (·.allocatedOunces)).sum := by
    induction b.allocations with
    | nil => simp
    | cons item items ih =>
      simp only [List.map_cons, List.sum_cons, ih, allocationNet]
      ring
  rw [apart, sum_viewResidual, total_routeBalances, legacy, allocations, h.sourced, h.hedged]
  ring

/-- Over all views, the intents of a fill are the one entry of the joint index. -/
theorem Audited.intentsOf (h : Audited cfg b t) (fillKey : String) :
    cfg.intentsOf b fillKey = ((cfg.intentsByFill b).get? fillKey).toList := by
  have indexed := congrArg (List.map Prod.snd) ((cfg.intentsByFill b).filter_key fillKey)
  rw [h.entries] at indexed
  have joined : ∀ views : List ViewKey,
      ((views.flatMap fun v => (b.views v).hedgeIntents.values.map fun intent =>
        (intent.fillKey, intent)).filter (·.1 = fillKey)).map Prod.snd =
      views.flatMap fun v => (b.views v).hedgeIntents.values.filter (·.fillKey = fillKey) := by
    intro views
    induction views with
    | nil => rfl
    | cons v views ih =>
      rw [List.flatMap_cons, List.filter_append, List.map_append, ih, List.flatMap_cons,
        List.filter_map, List.map_map]
      congr 1
      exact List.map_id _
  rw [joined] at indexed
  rw [OwnerConfig.intentsOf, indexed, List.map_map]
  exact List.map_id _

theorem Audited.conserved (h : Audited cfg b t) : Conserved cfg b := by
  have replay : ∀ r, cfg.residual b r =
      carryAll (cfg.openingBalance r) (routeFills b.allocations r) := by
    intro r
    rw [residual_eq_balanceAfter, h.walked.replayed]
  refine ⟨h.net, ?_, sum_viewResidual cfg b, replay, ?_, ?_, ?_⟩
  · intro r balance found
    exact List.count_eq_one_of_mem cfg.viewKeys_nodup (cfg.routeBalances_held b r balance found)
  · intro r unopened
    rw [replay r, openingBalance, unopened]
    exact abs_carryAll_le (by norm_num) _
  · intro item member nonzero
    have owned := h.walked.owned item member
    rw [h.intentsOf]
    cases found : (cfg.intentsByFill b).get? item.fillKey with
    | none => rw [found] at owned; exact absurd owned nonzero
    | some intent => rw [found] at owned; exact ⟨intent, rfl, owned.2⟩
  · intro item member zero
    have owned := h.walked.owned item member
    rw [h.intentsOf]
    cases found : (cfg.intentsByFill b).get? item.fillKey with
    | none => rfl
    | some intent => rw [found] at owned; exact absurd zero owned.1

end OwnerConfig

/-- An owner's books balance after every sequence of calls on its views. -/
theorem shared_ledger_conserved {digest : String → String} {o : MakerStateStore}
    (h : OwnerReachable digest o) : OwnerConfig.Conserved o.cfg o.book := by
  obtain ⟨t, audited⟩ := OwnerConfig.audited_of_validate (reachable_valid h)
  exact audited.conserved

def sharedConfig : OwnerConfig where
  sharedStrategyIds := some ("MAKER-1", "TAKER-1")
  residualLimit := 0
  carryRoute := none
  legacySources := none
  legacyOrders := []

/-- An order of a view on the shared accounts. -/
def sharedRequest (clientOrderId : String) : SourceRequest where
  clientOrderId := clientOrderId
  side := .buy
  quantityOunces := 3
  sourceAccountId := some "SOURCE-1"
  sourceClientId := some "SOURCE"
  hedgeAccountId := some "HEDGE-1"
  hedgeClientId := some "HEDGE"

theorem two_sold_checked :
    HedgeLegFields.postInit { side := .sell, quantityOunces := 2 } = .ok () := by decide +kernel

/-- A Maker fill of one and a half ounces rounds to two; the Taker's half ounce then takes
the balance over. -/
def alternatingFills : List (ViewKey × StoreOp) := [
  (.bid, .beginSource (sharedRequest "O-1")),
  (.taker, .beginSource (sharedRequest "O-2")),
  (.bid, .reserveSourceFill ⟨"O-1|V-1|T-1", "O-1", "T-1", .buy, 3 / 2⟩),
  (.taker, .reserveSourceFill ⟨"O-2|V-2|T-2", "O-2", "T-2", .buy, 1 / 4⟩),
  (.bid, .bindHedgePlan "hedge-O-1|V-1|T-1"
    [⟨{ side := .sell, quantityOunces := 2 }, two_sold_checked⟩]),
  (.bid, .bindHedgeOrder "hedge-O-1|V-1|T-1" "H-1"),
  (.bid, .applyHedgeFill ⟨"H-1", "D-1", 1⟩)]

theorem shared_ledger_conserved_alternating :
    let o := MakerStateStore.run id ⟨sharedConfig, .empty, .empty, false⟩ alternatingFills
    OwnerConfig.Conserved o.cfg o.book := by
  have start : OwnerReachable id ⟨sharedConfig, .empty, .empty, false⟩ :=
    .start (by decide +kernel)
  exact shared_ledger_conserved (start.run (by decide +kernel))

end ArbNautilus.Store
