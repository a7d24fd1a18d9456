import ArbNautilus.Store.OwnerFile

/-! The quantities a state holds stay decimals, whatever is called. -/

namespace ArbNautilus.Store

open Base

/-- Every quantity that is handed over is a decimal. -/
def StoreOp.Decimals : StoreOp → Prop
  | .beginSource request => Decimal.IsFraction request.quantityOunces ∧
      ∀ q ∈ request.hedgePositionQuantityOunces, Decimal.IsFraction q
  | .reserveSourceFill fill => Decimal.IsFraction fill.fillOunces
  | .bindHedgePlan _ plan => ∀ leg ∈ plan, leg.toHedgeLegFields.Written
  | .applyHedgeFill fill => Decimal.IsFraction fill.fillOunces
  | _ => True

theorem fillsOfAttempt_congr {intent other : HedgeIntent}
    (same : other.rejectedAttempt = intent.rejectedAttempt) (fills : Finset String) :
    fillsOfAttempt other fills ↔ fillsOfAttempt intent fills := by
  unfold fillsOfAttempt
  rw [same]

theorem not_fillsOfAttempt {intent : HedgeIntent} (none : intent.rejectedAttempt = none)
    (fills : Finset String) : ¬fillsOfAttempt intent fills := by
  rintro ⟨attempt, archived, -⟩
  rw [none] at archived
  cases archived

section Records

/-- The quantities of an intent, where its plan and its amounts are another's. -/
theorem IntentFields.Written.of_same {i j : IntentFields} (h : i.Written)
    (sourceFill : j.sourceFillOunces = i.sourceFillOunces)
    (quantity : j.hedgeQuantityOunces = i.hedgeQuantityOunces)
    (position : j.hedgePositionQuantityOunces = i.hedgePositionQuantityOunces)
    (filled : Decimal.IsFraction j.hedgeFilledOunces) (plan : j.hedgePlan = i.hedgePlan)
    (legFilled : Decimal.IsFraction j.hedgeLegFilledOunces) : j.Written where
  sourceFill := sourceFill ▸ h.sourceFill
  quantity := quantity ▸ h.quantity
  position := position ▸ h.position
  filled := filled
  plan := plan ▸ h.plan
  legFilled := legFilled

theorem holdFill_written {intent : HedgeIntent} (h : intent.toIntentFields.Written)
    {fill : HedgeFill}
    (fraction : Decimal.IsFraction fill.fillOunces) {legFilled : ℚ}
    (leg : Decimal.IsFraction legFilled) :
    (StoreState.holdFill intent fill legFilled).Written :=
  h.of_same rfl rfl rfl (Decimal.isFraction_add h.filled fraction) rfl leg

/-- A fill adds to what is filled, and leaves the leg's part a sum of fills or nothing. -/
theorem advanceFields_written {intent : HedgeIntent} (h : intent.toIntentFields.Written)
    {fill : HedgeFill}
    (fraction : Decimal.IsFraction fill.fillOunces) (halt blockedReason : Option String) :
    (StoreState.advanceFields intent fill halt blockedReason).1.Written := by
  have filled := Decimal.isFraction_add h.filled fraction
  have legFilled := Decimal.isFraction_add h.legFilled fraction
  unfold StoreState.advanceFields
  split
  · apply holdFill_written h fraction
    split
    · exact legFilled
    · exact h.legFilled
  · split
    · exact ⟨h.sourceFill, h.quantity, h.position, filled, h.plan, h.legFilled⟩
    · split
      · exact holdFill_written h fraction h.legFilled
      · split
        · exact holdFill_written h fraction legFilled
        · exact ⟨h.sourceFill, h.quantity, h.position, filled, h.plan, Decimal.isFraction_zero⟩

end Records

namespace StoreState

variable {s t : StoreState}

theorem Written.of_same (h : s.Written) (orders : t.sourceOrders = s.sourceOrders)
    (intents : t.hedgeIntents = s.hedgeIntents) (fills : t.seenHedgeFills = s.seenHedgeFills)
    (net : t.netUnhedgedOunces = s.netUnhedgedOunces) : t.Written where
  orders := orders ▸ h.orders
  intents := intents ▸ h.intents
  net := net ▸ h.net
  retired := by
    rw [intents, fills]
    exact h.retired

theorem Written.setOrder (h : s.Written) (k : String) {record : SourceOrderRecord}
    (amounts : record.Written)
    (orders : t.sourceOrders = s.sourceOrders.set k record)
    (intents : t.hedgeIntents = s.hedgeIntents)
    (fills : t.seenHedgeFills = s.seenHedgeFills)
    (net : t.netUnhedgedOunces = s.netUnhedgedOunces) :
    t.Written where
  orders := by
    intro other member
    rw [orders] at member
    obtain ⟨k', found⟩ := (Dict.mem_values_iff _ _).1 member
    rw [Dict.get?_set] at found
    split at found
    · cases found
      exact amounts
    · exact h.orders other ((Dict.mem_values_iff _ _).2 ⟨k', found⟩)
  intents := intents ▸ h.intents
  net := net ▸ h.net
  retired := by
    rw [intents, fills]
    exact h.retired

theorem mem_values_setIntent {k : String} {intent other : HedgeIntent}
    (member : other ∈ (s.setIntent k intent).hedgeIntents.values) :
    other = intent ∨ other ∈ s.hedgeIntents.values := by
  obtain ⟨k', found⟩ := (Dict.mem_values_iff _ _).1 member
  rw [setIntent, Dict.get?_set] at found
  split at found
  · cases found
    exact .inl rfl
  · exact .inr ((Dict.mem_values_iff _ _).2 ⟨k', found⟩)

theorem Written.setIntent (h : s.Written) (k : String) {intent : HedgeIntent}
    (amounts : intent.toIntentFields.Written) (clean : ¬fillsOfAttempt intent s.seenHedgeFills) :
    (s.setIntent k intent).Written where
  orders := h.orders
  intents := by
    intro other member
    obtain rfl | member := mem_values_setIntent member
    · exact amounts
    · exact h.intents other member
  net := h.net
  retired := by
    intro other member
    obtain rfl | member := mem_values_setIntent member
    · exact clean
    · exact h.retired other member

/-- An intent that takes the place of another, its archived attempt the same. -/
theorem Written.replaceIntent (h : s.Written) {k : String} {intent replaced : HedgeIntent}
    (found : s.hedgeIntents.get? k = some intent) (k' : String)
    (amounts : replaced.toIntentFields.Written)
    (same : replaced.rejectedAttempt = intent.rejectedAttempt) :
    (s.setIntent k' replaced).Written := by
  apply h.setIntent k' amounts
  rw [fillsOfAttempt_congr same]
  exact h.retired intent ((Dict.mem_values_iff _ _).2 ⟨k, found⟩)

theorem Written.intent (h : s.Written) {k : String} {intent : HedgeIntent}
    (found : s.hedgeIntents.get? k = some intent) : intent.toIntentFields.Written :=
  h.intents intent ((Dict.mem_values_iff _ _).2 ⟨k, found⟩)

theorem Written.order (h : s.Written) {k : String} {record : SourceOrderRecord}
    (found : s.sourceOrders.get? k = some record) : record.Written :=
  h.orders record ((Dict.mem_values_iff _ _).2 ⟨k, found⟩)

theorem emptyState_written : emptyState.Written where
  orders := by simp [emptyState]
  intents := by simp [emptyState]
  net := Decimal.isFraction_zero
  retired := by simp [emptyState]

/-- No archived attempt retired the order of a fill. -/
def Unretired (s : StoreState) (fill : HedgeFill) : Prop :=
  ∀ intent ∈ s.hedgeIntents.values, ∀ attempt ∈ intent.rejectedAttempt,
    (splitText '|' fill.fillKey).head? ≠ some attempt.clientOrderId

theorem advanceFields_attempt (intent : HedgeIntent) (fill : HedgeFill)
    (halt blockedReason : Option String) :
    (advanceFields intent fill halt blockedReason).1.rejectedAttempt = intent.rejectedAttempt := by
  unfold advanceFields
  split
  · rfl
  · split
    · rfl
    · split
      · rfl
      · split <;> rfl

section Calls

variable (h : s.Written)

include h

theorem Written.beginSource_written {admissible : Bool} {request : SourceRequest}
    (decimals : (StoreOp.beginSource request).Decimals)
    (yields : (s.beginSource admissible request).Yields t) :
    t.Written := by
  unfold beginSource at yields
  split at yields
  · simp at yields
  · rw [Change.yields_publishes] at yields
    subst yields
    exact h.setOrder _ ⟨decimals.1, decimals.2, Decimal.isFraction_zero⟩ rfl rfl rfl rfl

/-- An order whose status alone changes. -/
theorem Written.setStatus_written {k : String} {record : SourceOrderRecord}
    (found : s.sourceOrders.get? k = some record) {status : String}
    (orders : t.sourceOrders = s.sourceOrders.set k { record with status })
    (intents : t.hedgeIntents = s.hedgeIntents) (fills : t.seenHedgeFills = s.seenHedgeFills)
    (net : t.netUnhedgedOunces = s.netUnhedgedOunces) : t.Written := by
  have old := h.order found
  have amounts : ({ record with status } : SourceOrderRecord).Written :=
    ⟨old.quantity, old.position, old.filled⟩
  exact h.setOrder k amounts orders intents fills net

theorem Written.updateSourceStatus_written {clientOrderId status : String}
    (yields : (s.updateSourceStatus clientOrderId status).Yields t) : t.Written := by
  unfold updateSourceStatus at yields
  split at yields
  · simp at yields
  · rename_i record found
    rw [Change.yields_publishes] at yields
    subst yields
    exact h.setStatus_written found rfl rfl rfl rfl

theorem Written.confirmSourceReconciled_written {clientOrderId : String}
    (yields : (s.confirmSourceReconciled clientOrderId).Yields t) : t.Written := by
  unfold confirmSourceReconciled at yields
  split at yields
  · simp at yields
  · split at yields
    · rw [Change.yields_reserves] at yields
      subst yields
      exact h.of_same rfl rfl rfl rfl
    · simp at yields

theorem Written.markSourceUnknown_written {clientOrderId reason : String}
    (yields : (s.markSourceUnknown clientOrderId reason).Yields t) : t.Written := by
  unfold markSourceUnknown at yields
  rw [Change.yields_publishes] at yields
  subst yields
  cases found : s.sourceOrders.get? clientOrderId with
  | none => exact h.of_same rfl rfl rfl rfl
  | some record => exact h.setStatus_written found rfl rfl rfl rfl

theorem Written.mapIntents_written {f : HedgeIntent → Except Raised HedgeIntent}
    {intents : List HedgeIntent}
    (clean : ∀ intent ∈ intents, ∀ replaced, f intent = .ok replaced →
      replaced.toIntentFields.Written ∧ ¬fillsOfAttempt replaced s.seenHedgeFills)
    (mapped : mapIntents f s intents = .ok t) : t.Written := by
  induction intents generalizing s with
  | nil =>
    simp only [mapIntents, List.foldlM_nil, pure_eq_ok] at mapped
    exact mapped ▸ h
  | cons intent intents ih =>
    simp only [mapIntents, List.foldlM_cons, bind_eq_ok, pure_eq_ok] at mapped
    obtain ⟨u, ⟨replaced, made, rfl⟩, mapped⟩ := mapped
    obtain ⟨amounts, apart⟩ := clean intent List.mem_cons_self replaced made
    have next := h.setIntent intent.intentId amounts apart
    apply ih next _ mapped
    intro other member
    exact clean other (List.mem_cons_of_mem _ member)

theorem Written.recoverForStart_written (yields : s.recoverForStart.Yields t) : t.Written := by
  obtain ⟨orders, v, halt, changed, mapped, rfl⟩ := recoverForStart_yields yields
  have started : ({ s with sourceOrders := orders } : StoreState).Written := by
    obtain rfl | ⟨active, current, found, rfl⟩ := changed
    · exact h.of_same rfl rfl rfl rfl
    · exact h.setStatus_written found rfl rfl rfl rfl
  have kept : v.Written := by
    apply started.mapIntents_written _ mapped
    intro intent member replaced made
    have listed : intent ∈ s.hedgeIntents.values :=
      (List.mem_filter.1 (List.mem_filter.1 member).1).1
    have fields := IntentFields.make_eq_ok made
    have old := h.intents intent listed
    constructor
    · rw [fields]
      exact old.of_same rfl rfl rfl old.filled rfl old.legFilled
    · rw [@fillsOfAttempt_congr intent replaced (by rw [fields])]
      exact h.retired intent listed
  exact kept.of_same rfl rfl rfl rfl

theorem Written.bindHedgeOrder_written {intentId clientOrderId : String}
    (yields : (s.bindHedgeOrder intentId clientOrderId).Yields t) : t.Written := by
  obtain ⟨intent, bound, found, -, -, -, -, fields, rfl⟩ := bindHedgeOrder_yields yields
  have old := h.intent found
  apply h.replaceIntent found
  · rw [fields]
    exact old.of_same rfl rfl rfl old.filled rfl old.legFilled
  · rw [fields]

theorem Written.bindHedgePlan_written {intentId : String} {plan : List HedgeLeg}
    (decimals : (StoreOp.bindHedgePlan intentId plan).Decimals)
    (yields : (s.bindHedgePlan intentId plan).Yields t) : t.Written := by
  obtain ⟨intent, planned, found, -, -, -, -, -, fields, rfl⟩ := bindHedgePlan_yields yields
  have old := h.intent found
  apply h.replaceIntent found
  · rw [fields]
    exact ⟨old.sourceFill, old.quantity, old.position, old.filled, decimals,
      Decimal.isFraction_zero⟩
  · rw [fields]

theorem Written.blockHedgeIntent_written {intentId reason : String}
    (yields : (s.blockHedgeIntent intentId reason).Yields t) : t.Written := by
  obtain ⟨intent, blocked, found, -, fields, rfl⟩ := blockHedgeIntent_yields yields
  have old := h.intent found
  have kept : (s.setIntent intentId blocked).Written := by
    apply h.replaceIntent found
    · rw [fields]
      exact old.of_same rfl rfl rfl old.filled rfl old.legFilled
    · rw [fields]
  exact kept.of_same rfl rfl rfl rfl

theorem Written.updateHedgeStatus_written {clientOrderId : String} {status : ObligationStatus}
    {nativeStatus : Option String}
    (yields : (s.updateHedgeStatus clientOrderId status nativeStatus).Yields t) :
    t.Written := by
  obtain ⟨intent, updated, named, intents, orders, -, fills, net, cases⟩ :=
    updateHedgeStatus_yields yields
  obtain ⟨-, k, found⟩ := intentForHedgeOrder_eq_some named
  have old := h.intent found
  have fields : updated.toIntentFields.Written ∧
      updated.rejectedAttempt = intent.rejectedAttempt := by
    obtain ⟨-, -, fields⟩ | ⟨-, -, -, fields⟩ := cases
    · rw [fields]
      exact ⟨old.of_same rfl rfl rfl old.filled rfl old.legFilled, rfl⟩
    · rw [fields]
      exact ⟨old.of_same rfl rfl rfl old.filled rfl old.legFilled, rfl⟩
  have kept := h.replaceIntent found intent.intentId fields.1 fields.2
  exact kept.of_same orders intents fills net

theorem Written.applyHedgeFill_written {fill : HedgeFill}
    (decimals : (StoreOp.applyHedgeFill fill).Decimals)
    (apart : ∀ named, s.intentForHedgeOrder fill.clientOrderId = some named →
      ¬isRejectedAttempt named fill.clientOrderId → fill.fillKey ∈ t.seenHedgeFills →
      s.Unretired fill)
    (yields : (s.applyHedgeFill fill).Yields t) : t.Written := by
  obtain ⟨-, applied⟩ := applyHedgeFill_yields yields
  obtain ⟨-, unchanged, -⟩ | ⟨intent, blocked, -, named, -, fields, rfl⟩ |
    ⟨intent, advanced, -, named, current, -, fields, -, rfl⟩ := applyFill_eq_ok applied
  · cases unchanged
  · obtain ⟨-, k, found⟩ := intentForHedgeOrder_eq_some named
    have old := h.intent found
    have kept : (s.setIntent intent.intentId blocked).Written := by
      apply h.replaceIntent found
      · rw [fields]
        exact old.of_same rfl rfl rfl old.filled rfl old.legFilled
      · rw [fields]
    exact kept.of_same rfl rfl rfl rfl
  · obtain ⟨-, k, found⟩ := intentForHedgeOrder_eq_some named
    have unretired := apart intent named current (Finset.mem_insert_self _ _)
    have amounts : advanced.toIntentFields.Written := by
      rw [fields]
      exact advanceFields_written (h.intent found) decimals _ _
    have same : advanced.rejectedAttempt = intent.rejectedAttempt := by
      rw [fields]
      exact advanceFields_attempt intent fill _ _
    have kept := h.replaceIntent found intent.intentId amounts same
    refine ⟨kept.orders, kept.intents, kept.net, ?_⟩
    rintro other member ⟨attempt, archived, key, seen, head⟩
    obtain rfl | seen := Finset.mem_insert.1 seen
    · obtain rfl | old := mem_values_setIntent member
      · rw [same] at archived
        exact unretired intent ((Dict.mem_values_iff _ _).2 ⟨k, found⟩) attempt archived head
      · exact unretired other old attempt archived head
    · exact kept.retired other member ⟨attempt, archived, key, seen, head⟩

theorem Written.recordSourceFill_written {record : SourceOrderRecord} {fill : SourceFill}
    {blockedReason : Option String}
    (amounts : record.Written) (fraction : Decimal.IsFraction fill.fillOunces)
    (recorded : s.recordSourceFill record fill blockedReason = .ok t) : t.Written := by
  obtain ⟨-, -, ⟨status, orders⟩, -, fills, intents, net⟩ := recordSourceFill_eq_ok recorded
  have filled : ({ record with filledOunces := record.filledOunces + fill.fillOunces, status } :
      SourceOrderRecord).Written :=
    ⟨amounts.quantity, amounts.position, Decimal.isFraction_add amounts.filled fraction⟩
  exact h.setOrder _ filled orders intents fills net

theorem Written.openHedgeIntent_written {digest : String → String} {record : SourceOrderRecord}
    {fill : SourceFill}
    {blockedReason : Option String} {rounded : ℤ} {opened : Option HedgeIntent}
    (amounts : record.Written)
    (fraction : Decimal.IsFraction fill.fillOunces)
    (made : s.openHedgeIntent digest record fill blockedReason rounded = .ok (t, opened)) :
    t.Written := by
  obtain ⟨-, rfl, -⟩ | ⟨-, intent, fields, -, rfl⟩ := openHedgeIntent_eq_ok made
  · exact h
  · apply h.setIntent
    · rw [fields]
      refine ⟨fraction, ?_, amounts.position, Decimal.isFraction_zero, ?_, Decimal.isFraction_zero⟩
      · simp only [openedIntent]
        exact_mod_cast Decimal.isFraction_intCast |rounded|
      · simp [openedIntent]
    · apply not_fillsOfAttempt
      rw [fields]
      rfl

end Calls

end StoreState

section Loaded

variable {repr : Value → String} {args : OwnerArgs}

/-- A double is a decimal. -/
theorem isFraction_nearest (x : ℚ) : Decimal.IsFraction (Binary64.nearest x) := by
  have halves (places : ℕ) (n : ℤ) : Decimal.IsFraction (n / 2 ^ places) := by
    refine ⟨places, ?_⟩
    have divides : ((n : ℚ) / 2 ^ places).den ∣ 2 ^ places := by
      have cast : ((n : ℚ) / 2 ^ places) = (n : ℚ) / ((2 ^ places : ℕ) : ℤ) := by push_cast; rfl
      rw [cast]
      exact_mod_cast Rat.den_dvd n ((2 ^ places : ℕ) : ℤ)
    exact divides.trans (pow_dvd_pow_of_dvd (by norm_num) places)
  unfold Binary64.nearest
  cases Binary64.quantum x with
  | ofNat places =>
    have whole : (nearestEven (x / 2 ^ (Int.ofNat places)) : ℚ) * 2 ^ (Int.ofNat places) =
        ((nearestEven (x / 2 ^ (Int.ofNat places)) * 2 ^ places : ℤ) : ℚ) := by
      rw [Int.ofNat_eq_natCast, zpow_natCast]
      push_cast
      rfl
    rw [whole]
    exact Decimal.isFraction_intCast _
  | negSucc places =>
    rw [zpow_negSucc, ← div_eq_mul_inv]
    exact halves _ _

theorem isFraction_numberOf {value : Value} {q : ℚ} (read : numberOf repr value = .ok q) :
    Decimal.IsFraction q := by
  unfold numberOf at read
  split at read
  · exact isFraction_of_decimalOf read
  · cases read
    exact Decimal.isFraction_intCast _
  · cases read
    split
    · exact Decimal.isFraction_intCast 1
    · exact Decimal.isFraction_zero
  · split at read
    · cases read
      exact isFraction_nearest _
    · cases read
  · cases read

theorem allocationOf_written {value : Value} {found : Allocation}
    (read : allocationOf repr value = .ok found) :
    Decimal.IsFraction found.signedFillOunces ∧ Decimal.IsFraction found.allocatedOunces := by
  unfold allocationOf at read
  split at read
  · simp only [bind_eq_ok, pure_eq_ok] at read
    obtain ⟨_, -, _, -, _, -, signed, first, allocated, second, rfl⟩ := read
    exact ⟨isFraction_numberOf (orRaise_eq_ok.1 first),
      isFraction_numberOf (orRaise_eq_ok.1 second)⟩
  · cases read

theorem legacyOrderOf_written {value : Value} {found : LegacyOrder}
    (read : legacyOrderOf repr value = .ok found) :
    Decimal.IsFraction found.filledOunces ∧ Decimal.IsFraction found.allocatedOunces := by
  unfold legacyOrderOf at read
  split at read
  · simp only [bind_eq_ok, pure_eq_ok] at read
    obtain ⟨_, -, _, -, _, -, _, -, _, -, _, -, filled, first, allocated, second, rfl⟩ := read
    exact ⟨isFraction_numberOf (orRaise_eq_ok.1 first),
      isFraction_numberOf (orRaise_eq_ok.1 second)⟩
  · cases read

theorem legacySourceOf_written {value : Value} {found : String × String}
    (read : legacySourceOf value = .ok found) : found.1 ≠ "" ∧ isDigest found.2 := by
  unfold legacySourceOf at read
  split at read
  · simp only [bind_eq_ok, raiseIf_eq_ok, pure_eq_ok, exists_const, not_or, not_not] at read
    obtain ⟨-, path, -, digest, -, ⟨named, digested⟩, rfl⟩ := read
    exact ⟨named, digested⟩
  · cases read

theorem readCheckpoint_written {value : Value} {sources : List (String × String)}
    {orders : List LegacyOrder}
    (read : readCheckpoint repr value = .ok (sources, orders)) : SourcesWritten sources ∧
      ∀ item ∈ orders, Decimal.IsFraction item.filledOunces ∧
      Decimal.IsFraction item.allocatedOunces := by
  unfold readCheckpoint at read
  split at read
  · simp only [bind_eq_ok, raiseIf_eq_ok, pure_eq_ok, exists_const, Prod.mk.injEq] at read
    obtain ⟨-, rows, -, items, -, count, found, paths, nodup, known, orders', rfl, rfl⟩ := read
    have length := (mapM_eq_ok.1 paths).length_eq
    have each := mapM_yields (fun _ _ => legacySourceOf_written) paths
    refine ⟨⟨?_, not_not.1 nodup, fun source member => (each source member).1,
      fun source member => (each source member).2⟩, mapM_yields (fun _ _ => legacyOrderOf_written)
        orders'⟩
    rw [not_and_or, not_not, not_not, length] at count
    exact count
  · cases read

theorem readView_written {row : Members} {v : ViewKey} {s : StoreState}
    (read : readView repr args row v = .ok s) :
    (v ∈ (args.config none []).viewKeys → s.Written) ∧
    (v ∉ (args.config none []).viewKeys → s = .emptyState) := by
  unfold readView at read
  split at read
  · rename_i known
    rw [bind_eq_ok] at read
    obtain ⟨_, -, read⟩ := read
    exact ⟨fun _ => fromPayload_written read, fun unknown => absurd known unknown⟩
  · rename_i unknown
    cases read
    exact ⟨fun known => absurd known unknown, fun _ => rfl⟩

/-- An owner read from its parts. -/
theorem parts_written {checkpoint : Option (List (String × String) × List LegacyOrder)}
    {allocations : List Allocation} {bid ask taker : StoreState} {row directions : Members}
    (legacy : ∀ found ∈ checkpoint, args.sharedStrategyIds.isSome = false ∧ SourcesWritten found.1 ∧
      ∀ item ∈ found.2, Decimal.IsFraction item.filledOunces ∧
      Decimal.IsFraction item.allocatedOunces)
    (items : readAllocations repr (itemOr row "allocations" .null) = .ok allocations)
    (first : readView repr args directions .bid = .ok bid)
    (second : readView repr args directions .ask = .ok ask)
    (third : readView repr args directions .taker = .ok taker) (cycleFreezeOnly : Bool) :
    OwnerWritten args (args.config (checkpoint.map Prod.fst) ((checkpoint.map Prod.snd).getD []))
      ⟨viewsOf bid ask taker, allocations, cycleFreezeOnly⟩ := by
  have each : ∀ item ∈ allocations,
      Decimal.IsFraction item.signedFillOunces ∧ Decimal.IsFraction item.allocatedOunces := by
    unfold readAllocations at items
    split at items
    · exact mapM_yields (fun _ _ => allocationOf_written) items
    · cases items
  have viewed (v : ViewKey) :
    (v ∈ (args.config none []).viewKeys → (viewsOf bid ask taker v).Written) ∧
      (v ∉ (args.config none []).viewKeys → viewsOf bid ask taker v = .emptyState) := by
    cases v with
    | bid => exact readView_written first
    | ask => exact readView_written second
    | taker => exact readView_written third
  have orders : ∀ item ∈ (checkpoint.map Prod.snd).getD [],
      Decimal.IsFraction item.filledOunces ∧ Decimal.IsFraction item.allocatedOunces := by
    cases checkpoint with
    | none => simp
    | some found => exact (legacy found rfl).2.2
  refine ⟨rfl, ?_, ?_, ?_, fun item member => (orders item member).1,
    fun item member => (orders item member).2,
    fun item member => (each item member).1, fun item member => (each item member).2,
    fun v known => (viewed v).1 known, fun v unknown => (viewed v).2 unknown⟩
  · intro shared
    cases checkpoint with
    | none => rfl
    | some found =>
      have alone := (legacy found rfl).1
      rw [shared] at alone
      cases alone
  · intro none
    cases checkpoint with
    | none => rfl
    | some found => cases none
  · intro sources member
    cases checkpoint with
    | none => cases member
    | some found =>
      cases member
      exact (legacy found rfl).2.1

/-- What is read of a file can be written. -/
theorem load_written {file : Value} {cfg : OwnerConfig} {b : Book}
    (read : load repr args file = .ok (cfg, b)) :
    OwnerWritten args cfg b := by
  unfold load at read
  dsimp only at read
  split at read
  · split at read
    · cases read
    · rename_i version _
      simp only [bind_eq_ok, raiseIf_eq_ok, exists_const, not_or, not_not] at read
      obtain ⟨⟨-, supported⟩, -, cycleFreezeOnly, -, -, read⟩ := read
      split at read
      · simp only [loadState, bind_eq_ok, raiseIf_eq_ok, exists_const] at read
        obtain ⟨-, -, read⟩ := read
        have read := orInvalid_eq_ok.1 read
        split at read
        · rename_i migrated
          simp only [bind_eq_ok, map_eq_ok, pure_eq_ok, Prod.mk.injEq] at read
          obtain ⟨_, ⟨found, legacy, rfl⟩, allocations, items, bid, first, ask, second, taker,
            third, rfl,
            rfl⟩ := read
          apply parts_written _ items first second third
          rintro _ ⟨⟩
          obtain ⟨sources, orders⟩ := readCheckpoint_written legacy
          refine ⟨?_, sources, orders⟩
          by_contra shared
          rw [Bool.not_eq_false] at shared
          rw [if_pos shared, List.mem_singleton] at supported
          subst supported
          simp at migrated
        · simp only [bind_eq_ok, pure_eq_ok, Prod.mk.injEq] at read
          obtain ⟨_, none, allocations, items, bid, first, ask, second, taker, third, rfl, rfl⟩ :=
            read
          cases none
          apply parts_written _ items first second third
          rintro _ ⟨⟩
      · cases read
  · cases read

end Loaded

end ArbNautilus.Store
