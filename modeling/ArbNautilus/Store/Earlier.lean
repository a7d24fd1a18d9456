import ArbNautilus.Base.Traverse
import ArbNautilus.Store.Reorder

/-! A book that validates also did before its last source fills. -/

namespace ArbNautilus.Store

open Base

/-- What a source order has from the start. -/
def SourceOrderRecord.terms (record : SourceOrderRecord) : SourceOrderRecord :=
  { record with status := "", filledOunces := 0 }

/-- An intent but for its status. -/
def IntentFields.bare (intent : IntentFields) : IntentFields := { intent with status := .pending }

/-- What two source orders of the same terms share. -/
structure SourceOrderRecord.SameTerms (one two : SourceOrderRecord) : Prop where
  clientOrderId : one.clientOrderId = two.clientOrderId
  side : one.side = two.side
  sourceAccountId : one.sourceAccountId = two.sourceAccountId
  hedgeAccountId : one.hedgeAccountId = two.hedgeAccountId
  route : route one = route two

theorem SourceOrderRecord.sameTerms {one two : SourceOrderRecord} (h : one.terms = two.terms) :
    one.SameTerms two := by
  have cid := congrArg SourceOrderRecord.clientOrderId h
  have side := congrArg SourceOrderRecord.side h
  have source := congrArg SourceOrderRecord.sourceAccountId h
  have hedge := congrArg SourceOrderRecord.hedgeAccountId h
  have same := congrArg Store.route h
  exact ⟨cid, side, source, hedge, same⟩

/-- What two intents share that are alike but for their status. -/
structure IntentFields.SameBare (one two : IntentFields) : Prop where
  intentId : one.intentId = two.intentId
  fillKey : one.fillKey = two.fillKey
  sourceClientOrderId : one.sourceClientOrderId = two.sourceClientOrderId
  sourceTradeId : one.sourceTradeId = two.sourceTradeId
  sourceSide : one.sourceSide = two.sourceSide
  sourceFillOunces : one.sourceFillOunces = two.sourceFillOunces
  hedgeSide : one.hedgeSide = two.hedgeSide
  hedgeQuantityOunces : one.hedgeQuantityOunces = two.hedgeQuantityOunces
  hedgeOrderIds : one.hedgeOrderIds = two.hedgeOrderIds
  hedgeClientOrderId : one.hedgeClientOrderId = two.hedgeClientOrderId

theorem IntentFields.sameBare {one two : IntentFields} (h : one.bare = two.bare) :
    one.SameBare two := by
  have id := congrArg IntentFields.intentId h
  have fill := congrArg IntentFields.fillKey h
  have order := congrArg IntentFields.sourceClientOrderId h
  have trade := congrArg IntentFields.sourceTradeId h
  have side := congrArg IntentFields.sourceSide h
  have ounces := congrArg IntentFields.sourceFillOunces h
  have hedge := congrArg IntentFields.hedgeSide h
  have quantity := congrArg IntentFields.hedgeQuantityOunces h
  have orders := congrArg IntentFields.hedgeOrderIds h
  have current := congrArg IntentFields.hedgeClientOrderId h
  exact ⟨id, fill, order, trade, side, ounces, hedge, quantity, orders, current⟩

/-- The intent but for its status. -/
def HedgeIntent.bare (intent : HedgeIntent) : IntentFields := intent.toIntentFields.bare

/-- One row beside another of the same key. -/
def Beside {ν β : Type} (part : ν → β) (one two : String × ν) : Prop :=
  one.1 = two.1 ∧ part one.2 = part two.2

theorem lookup_beside {ν β : Type} {part : ν → β} {es fs : List (String × ν)}
    (rows : List.Forall₂ (Beside part) es fs) (k : String) :
    (Dict.lookup k es).map part = (Dict.lookup k fs).map part := by
  induction rows with
  | nil => rfl
  | @cons e f es fs row rows ih =>
    unfold Dict.lookup
    rw [row.1]
    split
    · exact congrArg some row.2
    · exact ih

/-- The state before some of its source fills. -/
structure StoreState.Earlier (s t : StoreState) (new : List (String × HedgeIntent)) : Prop where
  orders : List.Forall₂ (Beside SourceOrderRecord.terms) t.sourceOrders.entries
    s.sourceOrders.entries
  active : ∀ active ∈ s.activeSourceOrderId, s.sourceOrders.get? active ≠ none
  net : s.netUnhedgedOunces = 0
  seen : s.seenSourceFills ⊆ t.seenSourceFills
  seenHedges : s.seenHedgeFills = t.seenHedgeFills
  intents : ∃ old, t.hedgeIntents.entries = old ++ new ∧
    List.Forall₂ (Beside HedgeIntent.bare) old s.hedgeIntents.entries
  claimed : ∀ entry ∈ s.hedgeIntents.entries, entry.2.fillKey ∈ s.seenSourceFills
  unbound : ∀ entry ∈ new, entry.2.hedgeOrderIds = [] ∧ entry.2.hedgeClientOrderId = none

namespace OwnerConfig

/-- The identities that a shorter walk meets. -/
structure Identities.Within (few many : Identities) : Prop where
  sourceIds : few.sourceIds ⊆ many.sourceIds
  fillKeys : few.fillKeys ⊆ many.fillKeys
  intentIds : few.intentIds ⊆ many.intentIds
  hedgeIds : few.hedgeIds ⊆ many.hedgeIds
  hedgeFillKeys : few.hedgeFillKeys ⊆ many.hedgeFillKeys
  sourceTrades : few.sourceTrades ⊆ many.sourceTrades
  hedgeTrades : few.hedgeTrades ⊆ many.hedgeTrades

section Views

variable {s t : StoreState} {new : List (String × HedgeIntent)}
  {side : Option BusinessOrderSide}

theorem checkRecord_earlier {es fs : List (String × SourceOrderRecord)}
    (rows : List.Forall₂ (Beside SourceOrderRecord.terms) fs es) {few many many' : Identities}
    (within : few.Within many) (loop : fs.foldlM (checkRecord side) many = .ok many') :
    ∃ few', es.foldlM (checkRecord side) few = .ok few' ∧ few'.Within many' := by
  refine foldlM_simulates (f := checkRecord side) (R := fun many few : Identities =>
    few.Within many) ?_ rows within loop
  rintro many few ⟨k, later⟩ ⟨k', record⟩ next within ⟨same, terms⟩ turn
  dsimp only at same terms
  subst same
  have kin := SourceOrderRecord.sameTerms terms
  simp only [checkRecord, bind_unit_eq_ok, raiseIf_eq_ok, pure_eq_ok, not_or] at turn ⊢
  rw [kin.clientOrderId, kin.side] at turn
  obtain ⟨⟨named, nonempty, fresh⟩, sided, rfl⟩ := turn
  refine ⟨_, ⟨⟨named, nonempty, fun known => fresh (within.sourceIds known)⟩, sided, rfl⟩, ?_⟩
  exact ⟨Finset.insert_subset_insert _ within.sourceIds, within.fillKeys, within.intentIds,
    within.hedgeIds, within.hedgeFillKeys, within.sourceTrades, within.hedgeTrades⟩

/-- Fewer keys have fewer trades. -/
theorem checkTrades_earlier {trade trade' : String → Option (Option String × String)}
    {keys keys' : Finset String} {known known' trades' : Finset (Option String × String)}
    {invalid conflicting : String} (fewer : keys ⊆ keys') (met : known ⊆ known')
    (same : ∀ key ∈ keys, trade key = trade' key)
    (checked : checkTrades trade' keys' known' invalid conflicting = .ok trades') :
    ∃ trades, checkTrades trade keys known invalid conflicting = .ok trades ∧
      trades ⊆ trades' := by
  simp only [checkTrades, bind_unit_eq_ok, raiseIf_eq_ok, pure_eq_ok, not_or, not_not] at checked ⊢
  obtain ⟨named, ⟨distinct, apart⟩, rfl⟩ := checked
  have image : (keys.image fun key => (trade key).getD (none, "")) ⊆
      keys'.image fun key => (trade' key).getD (none, "") := by
    rw [Finset.image_congr (g := fun key => (trade' key).getD (none, ""))]
    · exact Finset.image_subset_image fewer
    · intro key member
      dsimp only
      rw [same key member]
  refine ⟨_, ⟨?_, ⟨?_, ?_⟩, rfl⟩, Finset.union_subset_union met image⟩
  · rintro ⟨key, member, none'⟩
    exact named ⟨key, fewer member, same key member ▸ none'⟩
  · rw [Finset.card_image_iff] at distinct ⊢
    intro one first two second equal
    dsimp only at equal
    rw [same one first, same two second] at equal
    exact distinct (fewer first) (fewer second) equal
  · exact (apart.mono_left met).mono_right image

theorem earlier_record (h : s.Earlier t new) {order : String} {later : SourceOrderRecord}
    (found : t.sourceOrders.get? order = some later) :
    ∃ record, s.sourceOrders.get? order = some record ∧ later.SameTerms record := by
  have same := lookup_beside h.orders order
  change (t.sourceOrders.get? order).map _ = (s.sourceOrders.get? order).map _ at same
  rw [found] at same
  cases earlier : s.sourceOrders.get? order with
  | none => rw [earlier] at same; cases same
  | some record =>
    rw [earlier] at same
    exact ⟨record, rfl, SourceOrderRecord.sameTerms (Option.some.inj same)⟩

theorem sourceTrade_earlier (h : s.Earlier t new) (fillKey : String) :
    sourceTrade s fillKey = sourceTrade t fillKey := by
  have accounts (order trade : String) :
      (s.sourceOrders.get? order).map (fun record => (record.sourceAccountId, trade)) =
        (t.sourceOrders.get? order).map fun record => (record.sourceAccountId, trade) := by
    have same := lookup_beside h.orders order
    change (t.sourceOrders.get? order).map _ = (s.sourceOrders.get? order).map _ at same
    have mapped := congrArg (Option.map fun terms : SourceOrderRecord =>
      (terms.sourceAccountId, trade)) same
    rw [Option.map_map, Option.map_map] at mapped
    exact mapped.symm
  simp only [sourceTrade, accounts]

/-- Two walks over intents, the one with fewer identities. -/
def FewerMet (many few : Identities × Dict String (Option String)) : Prop :=
  few.1.Within many.1 ∧ many.2 = few.2

theorem fits_earlier (h : s.Earlier t new) {later entry : String × HedgeIntent}
    {account : Option String} (row : Beside HedgeIntent.bare later entry)
    (claimed : entry.2.fillKey ∈ s.seenSourceFills) (fits : Fits t side later account) :
    Fits s side entry account := by
  obtain ⟨keyed, sided, record, found, -, direction, ⟨head, trade⟩, account'⟩ := fits
  obtain ⟨same, fields⟩ := row
  have kin := IntentFields.sameBare fields
  rw [same, kin.intentId] at keyed
  rw [kin.sourceSide] at sided direction
  rw [kin.fillKey, kin.sourceClientOrderId] at head
  rw [kin.fillKey, kin.sourceTradeId] at trade
  rw [kin.sourceClientOrderId] at found
  obtain ⟨earlier, found', terms⟩ := earlier_record h found
  refine ⟨keyed, sided, earlier, found', claimed, ?_, ⟨head, trade⟩, ?_⟩
  · exact direction.trans terms.side
  · exact terms.hedgeAccountId.symm.trans account'

theorem checkIntent_earlier (h : s.Earlier t new) {es fs : List (String × HedgeIntent)}
    (rows : List.Forall₂ (Beside HedgeIntent.bare) fs es)
    (claimed : ∀ entry ∈ es, entry.2.fillKey ∈ s.seenSourceFills)
    {many few many' : Identities × Dict String (Option String)} (fewer : FewerMet many few)
    (loop : fs.foldlM (checkIntent t side) many = .ok many') :
    ∃ few', es.foldlM (checkIntent s side) few = .ok few' ∧ FewerMet many' few' := by
  have both : List.Forall₂ (fun later entry : String × HedgeIntent =>
      entry.2.fillKey ∈ s.seenSourceFills ∧
        Beside HedgeIntent.bare later entry) fs es :=
    ((List.forall₂_and_left es fs).2 ⟨claimed, rows.flip⟩).flip
  refine foldlM_simulates (f := checkIntent t side) (R := FewerMet) ?_ both fewer loop
  rintro many few later entry next ⟨within, accounts⟩ ⟨seen, row⟩ turn
  obtain ⟨account, fits, fresh, apart, rfl⟩ := checkIntent_eq_ok.1 turn
  have kin := IntentFields.sameBare row.2
  have held : heldOrders later.2 = heldOrders entry.2 := by
    rw [heldOrders, heldOrders, kin.hedgeOrderIds, kin.hedgeClientOrderId]
  rw [row.1] at fresh
  rw [held] at apart
  refine ⟨metIntent few entry account, checkIntent_eq_ok.2 ⟨account,
    fits_earlier h row seen fits, fun known => fresh (within.intentIds known),
    apart.mono_left within.hedgeIds, rfl⟩, ?_, ?_⟩
  · simp only [metIntent, row.1, held]
    exact ⟨within.sourceIds, within.fillKeys, Finset.insert_subset_insert _ within.intentIds,
      Finset.union_subset_union within.hedgeIds (Finset.Subset.refl _), within.hedgeFillKeys,
      within.sourceTrades, within.hedgeTrades⟩
  · simp only [metIntent, kin.hedgeOrderIds, kin.hedgeClientOrderId, accounts]

/-- Intents without an order add identities only. -/
theorem checkIntent_unbound {entries : List (String × HedgeIntent)}
    (unbound : ∀ entry ∈ entries, entry.2.hedgeOrderIds = [] ∧ entry.2.hedgeClientOrderId = none)
    {acc acc' : Identities × Dict String (Option String)}
    (loop : entries.foldlM (checkIntent t side) acc = .ok acc') : FewerMet acc' acc := by
  induction entries generalizing acc with
  | nil =>
    simp only [List.foldlM_nil, pure_eq_ok] at loop
    subst loop
    exact ⟨⟨by simp, by simp, by simp, by simp, by simp, by simp, by simp⟩, rfl⟩
  | cons entry entries ih =>
    obtain ⟨⟨ids, current⟩, unbound⟩ := List.forall_mem_cons.1 unbound
    simp only [List.foldlM_cons, bind_eq_ok] at loop
    obtain ⟨next, turn, loop⟩ := loop
    obtain ⟨account, -, -, -, rfl⟩ := checkIntent_eq_ok.1 turn
    obtain ⟨within, accounts⟩ := ih unbound loop
    simp only [metIntent, ids, current, Option.toList_none, List.append_nil,
      List.foldl_nil] at within accounts
    refine ⟨⟨within.sourceIds, within.fillKeys, ?_, ?_, within.hedgeFillKeys,
      within.sourceTrades, within.hedgeTrades⟩, accounts⟩
    · exact (Finset.subset_insert _ _).trans within.intentIds
    · exact Finset.subset_union_left.trans within.hedgeIds

theorem checkView_earlier {b c : Book} {v : ViewKey} (h : (b.views v).Earlier (c.views v) new)
    {few many many' : Identities} (within : few.Within many)
    (checked : checkView c many v = .ok many') :
    ∃ few', checkView b few v = .ok few' ∧ few'.Within many' := by
  unfold checkView at checked ⊢
  simp only [bind_eq_ok, raiseIf_eq_ok, pure_eq_ok, exists_const, not_or, not_not] at checked ⊢
  obtain ⟨-, -, walked, records, ⟨fresh, freshHedges⟩, trades, traded, ⟨reached, accounts⟩,
    intents, hedged, hedges, rfl⟩ := checked
  obtain ⟨walked₀, records₀, within₀⟩ := checkRecord_earlier h.orders within records
  obtain ⟨trades₀, traded₀, fewerTrades⟩ := checkTrades_earlier h.seen within₀.sourceTrades
    (fun key _ => sourceTrade_earlier h key) traded
  obtain ⟨old, entries, rows⟩ := h.intents
  rw [entries, List.foldlM_append, bind_eq_ok] at intents
  obtain ⟨mid, first, rest⟩ := intents
  have met : FewerMet
      ({ walked with
        fillKeys := walked.fillKeys ∪ (c.views v).seenSourceFills
        hedgeFillKeys := walked.hedgeFillKeys ∪ (c.views v).seenHedgeFills
        sourceTrades := trades }, Dict.empty)
      ({ walked₀ with
        fillKeys := walked₀.fillKeys ∪ (b.views v).seenSourceFills
        hedgeFillKeys := walked₀.hedgeFillKeys ∪ (b.views v).seenHedgeFills
        sourceTrades := trades₀ }, Dict.empty) := by
    refine ⟨⟨within₀.sourceIds, Finset.union_subset_union within₀.fillKeys h.seen,
      within₀.intentIds, within₀.hedgeIds, ?_, fewerTrades, within₀.hedgeTrades⟩, rfl⟩
    rw [h.seenHedges]
    exact Finset.union_subset_union within₀.hedgeFillKeys (Finset.Subset.refl _)
  obtain ⟨⟨reached₀, accounts₀⟩, intents₀, within₁, same⟩ :=
    checkIntent_earlier h rows h.claimed met first
  obtain ⟨within₂, same'⟩ := checkIntent_unbound h.unbound rest
  dsimp only at within₁ same within₂ same'
  have all : accounts = accounts₀ := same'.trans same
  obtain ⟨hedged₀, hedges₀, fewerHedges⟩ := checkTrades_earlier (Finset.Subset.refl _)
    (within₁.hedgeTrades.trans within₂.hedgeTrades) (fun key _ => by rw [all]) hedges
  rw [← h.seenHedges] at hedges₀ freshHedges
  refine ⟨_, ⟨fun missing => ?_, h.net, walked₀, records₀, ⟨?_, ?_⟩, trades₀, traded₀,
    (reached₀, accounts₀), intents₀, hedged₀, hedges₀, rfl⟩, ?_⟩
  · obtain ⟨active, current, none'⟩ := missing
    exact h.active active current none'
  · exact (fresh.mono_left within₀.fillKeys).mono_right h.seen
  · exact freshHedges.mono_left within₀.hedgeFillKeys
  · exact ⟨within₁.sourceIds.trans within₂.sourceIds, within₁.fillKeys.trans within₂.fillKeys,
      within₁.intentIds.trans within₂.intentIds, within₁.hedgeIds.trans within₂.hedgeIds,
      within₁.hedgeFillKeys.trans within₂.hedgeFillKeys,
      within₁.sourceTrades.trans within₂.sourceTrades, fewerHedges⟩

end Views

/-- The ounces of a source order among some allocations. -/
def ouncesOf (items : List Allocation) (cid : String) : ℚ :=
  ((items.filter (sourceOf · = cid)).map fun item => |item.signedFillOunces|).sum

/-- The book before the fills of some allocations. -/
structure Earlier (cfg : OwnerConfig) (b c : Book) (items : List Allocation) : Prop where
  views : ∀ v ∈ cfg.viewKeys, ∃ new, (b.views v).Earlier (c.views v) new ∧
    ∀ entry ∈ new, entry.2.fillKey ∉ cfg.seenFills b
  allocations : c.allocations = b.allocations ++ items
  fresh : ∀ item ∈ items, item.fillKey ∉ cfg.seenFills b
  seen : cfg.seenFills c = cfg.seenFills b ∪ (items.map (·.fillKey)).toFinset
  filled : ∀ v ∈ cfg.viewKeys, ∀ cid record later,
    (b.views v).sourceOrders.get? cid = some record →
    (c.views v).sourceOrders.get? cid = some later →
    later.filledOunces = record.filledOunces + ouncesOf items cid

section Books

variable {cfg : OwnerConfig} {b c : Book} {items : List Allocation}

/-- The intents of every view, each under its fill key. -/
def claims (cfg : OwnerConfig) (b : Book) : List (String × HedgeIntent) :=
  cfg.viewKeys.flatMap fun v =>
    (b.views v).hedgeIntents.values.map fun intent => (intent.fillKey, intent)

theorem get?_intentsByFill (entries : (cfg.intentsByFill b).entries = cfg.claims b) {k : String}
    {intent : HedgeIntent} : (cfg.intentsByFill b).get? k = some intent ↔
      ∃ v ∈ cfg.viewKeys, intent ∈ (b.views v).hedgeIntents.values ∧ intent.fillKey = k := by
  rw [← Dict.mem_entries_iff, entries, claims]
  simp only [List.mem_flatMap, List.mem_map, Prod.mk.injEq]
  constructor
  · rintro ⟨v, known, _, member, rfl, rfl⟩
    exact ⟨v, known, member, rfl⟩
  · rintro ⟨v, known, member, rfl⟩
    exact ⟨v, known, intent, member, rfl, rfl⟩

variable (h : Earlier cfg b c items)

include h

theorem Earlier.later {v : ViewKey} (known : v ∈ cfg.viewKeys) {intent : HedgeIntent}
    (member : intent ∈ (b.views v).hedgeIntents.values) :
    ∃ later ∈ (c.views v).hedgeIntents.values, later.bare = intent.bare := by
  obtain ⟨new, view, -⟩ := h.views v known
  obtain ⟨old, entries, rows⟩ := view.intents
  obtain ⟨entry, listed, rfl⟩ := List.mem_map.1 member
  obtain ⟨later, there, row⟩ := forall₂_right rows listed
  refine ⟨later.2, List.mem_map.2 ⟨later, ?_, rfl⟩, row.2⟩
  rw [entries]
  exact List.mem_append_left _ there

theorem Earlier.before {v : ViewKey} (known : v ∈ cfg.viewKeys) {later : HedgeIntent}
    (member : later ∈ (c.views v).hedgeIntents.values)
    (seen : later.fillKey ∈ cfg.seenFills b) :
    ∃ intent ∈ (b.views v).hedgeIntents.values, later.bare = intent.bare := by
  obtain ⟨new, view, fresh⟩ := h.views v known
  obtain ⟨old, entries, rows⟩ := view.intents
  obtain ⟨entry, listed, rfl⟩ := List.mem_map.1 member
  rw [entries] at listed
  rcases List.mem_append.1 listed with there | opened
  · obtain ⟨intent, here, row⟩ := forall₂_left rows there
    exact ⟨intent.2, List.mem_map_of_mem here, row.2⟩
  · exact absurd seen (fresh entry opened)

theorem Earlier.claims_nodup (entries : (cfg.intentsByFill c).entries = cfg.claims c) :
    ((cfg.claims b).map Prod.fst).Nodup := by
  have nodup := (cfg.intentsByFill c).nodup
  rw [entries] at nodup
  refine nodup.sublist ?_
  rw [claims, claims, List.map_flatMap, List.map_flatMap]
  apply List.Sublist.flatMap_right
  intro v known
  obtain ⟨new, view, -⟩ := h.views v known
  obtain ⟨old, split, rows⟩ := view.intents
  have same : (b.views v).hedgeIntents.entries.map (·.2.fillKey) = old.map (·.2.fillKey) :=
    map_eq_of_forall₂ (rows.imp fun _ _ row => (IntentFields.sameBare row.2).fillKey.symm)
  simp only [Dict.values, List.map_map, Function.comp_def, split, List.map_append, same]
  exact List.sublist_append_left _ _

theorem Earlier.byFill (before : (cfg.intentsByFill b).entries = cfg.claims b)
    (after : (cfg.intentsByFill c).entries = cfg.claims c) :
    (∀ k ∈ cfg.seenFills b, ((cfg.intentsByFill c).get? k).map HedgeIntent.bare =
      ((cfg.intentsByFill b).get? k).map HedgeIntent.bare) ∧
      ∀ k ∉ cfg.seenFills b, (cfg.intentsByFill b).get? k = none := by
  have forth {k : String} {intent : HedgeIntent}
      (found : (cfg.intentsByFill b).get? k = some intent) :
      ∃ later, (cfg.intentsByFill c).get? k = some later ∧ later.bare = intent.bare := by
    obtain ⟨v, known, member, rfl⟩ := (get?_intentsByFill before).1 found
    obtain ⟨later, there, same⟩ := h.later known member
    exact ⟨later, (get?_intentsByFill after).2 ⟨v, known, there,
      (IntentFields.sameBare same).fillKey⟩, same⟩
  constructor
  · intro k seen
    cases found : (cfg.intentsByFill b).get? k with
    | some intent =>
      obtain ⟨later, there, same⟩ := forth found
      rw [there, Option.map_some, Option.map_some, same]
    | none =>
      cases there : (cfg.intentsByFill c).get? k with
      | none => rfl
      | some later =>
        obtain ⟨v, known, member, rfl⟩ := (get?_intentsByFill after).1 there
        obtain ⟨intent, here, same⟩ := h.before known member seen
        have held := (get?_intentsByFill before).2 ⟨v, known, here,
          (IntentFields.sameBare same).fillKey.symm⟩
        rw [found] at held
        cases held
  · intro k unseen
    cases found : (cfg.intentsByFill b).get? k with
    | none => rfl
    | some intent =>
      obtain ⟨v, known, member, rfl⟩ := (get?_intentsByFill before).1 found
      obtain ⟨new, view, -⟩ := h.views v known
      obtain ⟨entry, listed, rfl⟩ := List.mem_map.1 member
      refine absurd ?_ unseen
      exact Finset.mem_biUnion.2 ⟨v, List.mem_toFinset.2 known, view.claimed entry listed⟩

end Books

/-- The intents that two walks over the same items still wait for, the earlier one for those of
its own fills only. -/
structure FewerWait (seen : Finset String) (later waiting : Dict String HedgeIntent) : Prop where
  own : ∀ k ∈ seen, (later.get? k).map HedgeIntent.bare = (waiting.get? k).map HedgeIntent.bare
  others : ∀ k ∉ seen, waiting.get? k = none

section Waiting

variable {seen : Finset String} {later waiting : Dict String HedgeIntent}
  (fewer : FewerWait seen later waiting)

include fewer

theorem FewerWait.erase (key : String) : FewerWait seen (later.erase key) (waiting.erase key) := by
  constructor
  · intro k member
    rw [Dict.get?_erase, Dict.get?_erase]
    split
    · rfl
    · exact fewer.own k member
  · intro k outside
    rw [Dict.get?_erase]
    split
    · rfl
    · exact fewer.others k outside

theorem FewerWait.found {k : String} (member : k ∈ seen) {held : HedgeIntent}
    (found : later.get? k = some held) :
    ∃ intent : HedgeIntent, waiting.get? k = some intent ∧
      held.SameBare intent.toIntentFields := by
  have same := fewer.own k member
  rw [found] at same
  cases here : waiting.get? k with
  | none => rw [here] at same; cases same
  | some intent =>
    rw [here] at same
    exact ⟨intent, rfl, IntentFields.sameBare (Option.some.inj same)⟩

theorem FewerWait.absent {k : String} (member : k ∈ seen) (absent : later.get? k = none) :
    waiting.get? k = none := by
  have same := fewer.own k member
  rw [absent] at same
  exact Option.map_eq_none_iff.1 same.symm

end Waiting

/-- The progress of two walks over the same items. -/
structure Tally.Earlier (seen : Finset String) (later tally : Tally) : Prop where
  allocated : later.allocated = tally.allocated
  totals : later.totals = tally.totals
  balances : later.balances = tally.balances
  intents : FewerWait seen later.intents tally.intents

section Walks

variable {cfg : OwnerConfig} {b c : Book} {items : List Allocation}
  {byId byId' : Dict String HedgeIntent}

theorem checkLegacyIntent_earlier {seen : Finset String} {item : LegacyOrder}
    (own : ∀ fillKey ∈ item.fillKeys, fillKey ∈ seen)
    (ids : ∀ id (later : HedgeIntent), byId'.get? id = some later → later.fillKey ∈ seen →
      ∃ intent : HedgeIntent, byId.get? id = some intent ∧ later.SameBare intent.toIntentFields)
    {acc' acc t' : Dict String HedgeIntent × ℚ × ℚ} {intentId : String}
    (fewer : FewerWait seen acc'.1 acc.1 ∧ acc'.2 = acc.2)
    (turn : checkLegacyIntent byId' item acc' intentId = .ok t') :
    ∃ t, checkLegacyIntent byId item acc intentId = .ok t ∧ FewerWait seen t'.1 t.1 ∧
      t'.2 = t.2 := by
  obtain ⟨waiting', known', allocated'⟩ := acc'
  obtain ⟨waiting, known, allocated⟩ := acc
  obtain ⟨fewer, same⟩ := fewer
  simp only [Prod.mk.injEq] at fewer same
  obtain ⟨rfl, rfl⟩ := same
  simp only [checkLegacyIntent] at turn ⊢
  split at turn
  · cases turn
  · rename_i later named
    simp only [bind_unit_eq_ok, raiseIf_eq_ok, pure_eq_ok, not_or, not_not] at turn
    obtain ⟨⟨order, keyed, positive, held⟩, rfl⟩ := turn
    have member := own _ keyed
    obtain ⟨intent, here, kin⟩ := ids intentId later named member
    obtain ⟨waits, found⟩ := Option.ne_none_iff_exists'.1 held
    obtain ⟨mine, found', -⟩ := fewer.found member found
    rw [kin.fillKey] at keyed found'
    rw [kin.sourceClientOrderId] at order
    rw [kin.sourceFillOunces] at positive
    rw [here]
    simp only [bind_unit_eq_ok, raiseIf_eq_ok, pure_eq_ok, not_or, not_not, kin.fillKey,
      kin.sourceFillOunces, kin.hedgeSide, kin.hedgeQuantityOunces]
    refine ⟨_, ⟨⟨order, keyed, positive, ?_⟩, rfl⟩, fewer.erase _, rfl⟩
    rw [found']
    exact Option.some_ne_none _

variable (h : Earlier cfg b c items)
  (records : ∀ cid later, (cfg.records c).get? cid = some later →
    ∃ record, (cfg.records b).get? cid = some record ∧ later.SameTerms record)

include h records

theorem checkLegacyOrder_earlier {item : LegacyOrder}
    (own : ∀ fillKey ∈ item.fillKeys, fillKey ∈ cfg.seenFills b)
    (ids : ∀ id (later : HedgeIntent), byId'.get? id = some later →
      later.fillKey ∈ cfg.seenFills b →
      ∃ intent : HedgeIntent, byId.get? id = some intent ∧ later.SameBare intent.toIntentFields)
    {later tally later' : Tally} (progress : Tally.Earlier (cfg.seenFills b) later tally)
    (turn : cfg.checkLegacyOrder c byId' later item = .ok later') :
    ∃ tally', cfg.checkLegacyOrder b byId tally item = .ok tally' ∧
      Tally.Earlier (cfg.seenFills b) later' tally' := by
  unfold checkLegacyOrder at turn ⊢
  dsimp only at turn ⊢
  split at turn
  · cases turn
  · rename_i grown found
    obtain ⟨record, here, kin⟩ := records _ _ found
    rw [here]
    simp only [bind_eq_ok, raiseIf_eq_ok, pure_eq_ok, exists_const, Prod.exists, not_or,
      not_not] at turn ⊢
    obtain ⟨⟨first, held, routed, positive⟩, fills, waiting', known, allocated, loop, exact',
      rfl⟩ := turn
    obtain ⟨⟨waiting, known₀, allocated₀⟩, loop₀, fewer, same⟩ :=
      @foldlM_follows _ _ _ _ _ (checkLegacyIntent byId item)
        (fun acc' acc => FewerWait (cfg.seenFills b) acc'.1 acc.1 ∧ acc'.2 = acc.2) _
        (fun _ _ _ _ _ fewer turn => checkLegacyIntent_earlier own ids fewer turn)
        _ _ (tally.intents, 0, 0) ⟨progress.intents, rfl⟩ loop
    simp only [Prod.mk.injEq] at same fewer
    obtain ⟨rfl, rfl⟩ := same
    rw [kin.route] at routed
    rw [progress.totals] at first
    rw [progress.allocated] at fills
    refine ⟨_, ⟨⟨first, ?_, routed, positive⟩, fills, waiting, known, allocated, loop₀, exact',
      rfl⟩, ?_⟩
    · obtain ⟨new, view, -⟩ := h.views _ (cfg.direction_known item.direction)
      obtain ⟨there, held⟩ := Option.ne_none_iff_exists'.1 held
      obtain ⟨mine, held', -⟩ := earlier_record view held
      rw [held']
      exact Option.some_ne_none _
    · refine ⟨?_, ?_, progress.balances, fewer⟩
      · rw [progress.allocated]
      · rw [progress.totals]

omit h in
theorem checkAllocation_earlier {item : Allocation} (booked : item.fillKey ∈ cfg.seenFills b)
    {later tally later' : Tally} (progress : Tally.Earlier (cfg.seenFills b) later tally)
    (turn : cfg.checkAllocation c later item = .ok later') :
    ∃ tally', cfg.checkAllocation b tally item = .ok tally' ∧
      Tally.Earlier (cfg.seenFills b) later' tally' := by
  unfold checkAllocation at turn ⊢
  dsimp only at turn ⊢
  rw [progress.allocated, progress.totals, progress.balances] at turn
  simp only [bind_unit_eq_ok, raiseIf_eq_ok, not_or, not_not] at turn ⊢
  obtain ⟨⟨-, fresh⟩, turn⟩ := turn
  have erased := progress.intents.erase item.fillKey
  split at turn
  · cases turn
  · rename_i grown found
    obtain ⟨record, here, kin⟩ := records _ _ found
    rw [here]
    rw [kin.side, kin.route] at turn
    simp only [bind_unit_eq_ok, raiseIf_eq_ok, not_or, not_not] at turn ⊢
    obtain ⟨fits, rounded, turn⟩ := turn
    split at turn
    · rename_i absent
      rw [progress.intents.absent booked absent]
      split at turn
      · rename_i zero
        rw [pure_eq_ok] at turn
        subst turn
        simp only [if_pos zero, pure_eq_ok]
        exact ⟨_, ⟨⟨booked, fresh⟩, fits, rounded, rfl⟩, rfl, rfl, rfl, erased⟩
      · cases turn
    · rename_i held waits
      obtain ⟨intent, mine, same⟩ := progress.intents.found booked waits
      rw [mine]
      simp only [bind_unit_eq_ok, raiseIf_eq_ok, pure_eq_ok, not_or, not_not] at turn ⊢
      obtain ⟨nonzero, owned, rfl⟩ := turn
      rw [same.hedgeQuantityOunces, same.sourceFillOunces, same.hedgeSide] at owned
      exact ⟨_, ⟨⟨booked, fresh⟩, fits, rounded, nonzero, owned, rfl⟩, rfl, rfl, rfl, erased⟩

end Walks

/-- What a walk over more allocations adds. -/
structure Walks (items : List Allocation) (t t' : Tally) : Prop where
  fresh : ∀ item ∈ items, item.fillKey ∉ t.allocated
  allocated : t'.allocated = t.allocated ∪ (items.map (·.fillKey)).toFinset
  totals : ∀ cid, (t'.totals.get? cid).getD 0 = (t.totals.get? cid).getD 0 + ouncesOf items cid
  intents : ∀ k ∉ items.map (·.fillKey), t'.intents.get? k = t.intents.get? k

theorem walks_items {cfg : OwnerConfig} {c : Book} {items : List Allocation} {t t' : Tally}
    (loop : items.foldlM (cfg.checkAllocation c) t = .ok t') : Walks items t t' := by
  induction items generalizing t with
  | nil =>
    simp only [List.foldlM_nil, pure_eq_ok] at loop
    subst loop
    exact ⟨by simp, by simp, by simp [ouncesOf], fun _ _ => rfl⟩
  | cons item items ih =>
    simp only [List.foldlM_cons, bind_eq_ok] at loop
    obtain ⟨next, turn, loop⟩ := loop
    have step := checkAllocation_eq_ok turn
    have rest := ih loop
    refine ⟨?_, ?_, ?_, ?_⟩
    · intro other member
      rcases List.mem_cons.1 member with rfl | later
      · exact step.fresh
      · intro known
        apply rest.fresh other later
        rw [step.allocated]
        exact Finset.mem_insert_of_mem known
    · rw [rest.allocated, step.allocated, List.map_cons, List.toFinset_cons, Finset.insert_union,
        Finset.union_insert]
    · intro cid
      obtain ⟨record, -, -, totals⟩ := step.source
      rw [rest.totals cid, totals, Dict.get?_set]
      by_cases own : sourceOf item = cid
      · subst own
        simp [ouncesOf]
        ring
      · simp [ouncesOf, own]
    · intro k outside
      rw [List.map_cons, List.mem_cons, not_or] at outside
      rw [rest.intents k outside.2, step.intents, Dict.get?_erase, if_neg (Ne.symm outside.1)]

theorem entries_eq_nil {d : Dict String HedgeIntent} (none' : ∀ k, d.get? k = none) :
    d.entries = [] := by
  rw [List.eq_nil_iff_forall_not_mem]
  intro entry member
  have found := (d.mem_entries_iff _ _).1 member
  rw [none'] at found
  cases found

section Validated

variable {cfg : OwnerConfig} {b c : Book} {items : List Allocation} (h : Earlier cfg b c items)

include h

theorem Earlier.entries : List.Forall₂ (Beside SourceOrderRecord.terms)
    (cfg.viewKeys.flatMap fun v => (c.views v).sourceOrders.entries)
    (cfg.viewKeys.flatMap fun v => (b.views v).sourceOrders.entries) := by
  have each : ∀ v ∈ cfg.viewKeys, List.Forall₂ (Beside SourceOrderRecord.terms)
      (c.views v).sourceOrders.entries (b.views v).sourceOrders.entries := by
    intro v known
    obtain ⟨new, view, -⟩ := h.views v known
    exact view.orders
  generalize cfg.viewKeys = keys at each
  induction keys with
  | nil => exact .nil
  | cons v keys ih =>
    obtain ⟨view, rest⟩ := List.forall_mem_cons.1 each
    exact List.rel_append view (ih rest)

theorem Earlier.records (before : Recorded cfg b) (after : Recorded cfg c) {cid : String}
    {later : SourceOrderRecord} (found : (cfg.records c).get? cid = some later) :
    ∃ record, (cfg.records b).get? cid = some record ∧ later.SameTerms record := by
  have same := lookup_beside h.entries cid
  rw [← before.entries, ← after.entries] at same
  change ((cfg.records c).get? cid).map _ = ((cfg.records b).get? cid).map _ at same
  rw [found] at same
  cases earlier : (cfg.records b).get? cid with
  | none => rw [earlier] at same; cases same
  | some record =>
    rw [earlier] at same
    exact ⟨record, rfl, SourceOrderRecord.sameTerms (Option.some.inj same)⟩

theorem Earlier.byId (before : Recorded cfg b)
    (entries : (cfg.intentsByFill b).entries = cfg.claims b)
    (distinct : ((cfg.viewKeys.flatMap fun v =>
      (b.views v).hedgeIntents.entries).map Prod.fst).Nodup)
    (after : (cfg.intentsByFill c).entries = cfg.claims c) {id : String} {later : HedgeIntent}
    (found : (Dict.ofList ((cfg.intentsByFill c).values.map fun intent =>
      (intent.intentId, intent))).get? id = some later)
    (seen : later.fillKey ∈ cfg.seenFills b) :
    ∃ intent, (Dict.ofList ((cfg.intentsByFill b).values.map fun intent =>
      (intent.intentId, intent))).get? id = some intent ∧ later.SameBare intent.toIntentFields := by
  obtain ⟨other, member, same⟩ := List.mem_map.1 (Dict.mem_of_get?_ofList found)
  simp only [Prod.mk.injEq] at same
  obtain ⟨rfl, rfl⟩ := same
  obtain ⟨k, held⟩ := (Dict.mem_values_iff _ _).1 member
  obtain ⟨v, known, there, -⟩ := (get?_intentsByFill after).1 held
  obtain ⟨intent, here, bare⟩ := h.before known there seen
  have kin := IntentFields.sameBare bare
  refine ⟨intent, ?_, kin⟩
  rw [← Dict.mem_entries_iff,
    Dict.entries_ofList_of_nodup (intentIds_nodup before entries distinct), kin.intentId]
  exact List.mem_map.2 ⟨intent, (Dict.mem_values_iff _ _).2 ⟨intent.fillKey,
    (get?_intentsByFill entries).2 ⟨v, known, here, rfl⟩⟩, rfl⟩

/-- The allocations of a book that validates were checked one by one, so those before the last
fills were, too. -/
theorem validateAllocations_earlier (before : Recorded cfg b) (after : Recorded cfg c)
    (distinct : ((cfg.viewKeys.flatMap fun v =>
      (b.views v).hedgeIntents.entries).map Prod.fst).Nodup)
    (valid : cfg.validateAllocations c = .ok ()) : cfg.validateAllocations b = .ok () := by
  unfold validateAllocations at valid ⊢
  rw [bind_unit_eq_ok, raiseIf_eq_ok, not_not] at valid ⊢
  obtain ⟨lengths, valid⟩ := valid
  have joined : (cfg.intentsByFill c).entries = cfg.claims c := by
    apply Dict.entries_ofList
    rw [intentsByFill] at lengths
    simpa [List.length_flatMap, Dict.values] using lengths
  have entries : (cfg.intentsByFill b).entries = cfg.claims b :=
    Dict.entries_ofList_of_nodup (h.claims_nodup joined)
  refine ⟨by simp [entries, claims, List.length_flatMap, Dict.values], ?_⟩
  simp only [bind_eq_ok, raiseIf_eq_ok, not_or, not_not] at valid ⊢
  obtain ⟨checkpoint, legacy, t, allocations, seen, spent, totals⟩ := valid
  rw [h.allocations, List.foldlM_append, bind_eq_ok] at allocations
  obtain ⟨mid, first, rest⟩ := allocations
  have walks := walks_items rest
  -- The walk over the allocations of `b` meets just the fills that `b` has seen.
  have met : mid.allocated = cfg.seenFills b := by
    have both := walks.allocated
    rw [seen, h.seen] at both
    ext k
    by_cases own : k ∈ (items.map (·.fillKey)).toFinset
    · obtain ⟨item, member, rfl⟩ := List.mem_map.1 (List.mem_toFinset.1 own)
      exact iff_of_false (walks.fresh item member) (h.fresh item member)
    · have member := Finset.ext_iff.1 both k
      simp only [Finset.mem_union, own, or_false] at member
      exact member.symm
  have opening := walked_opening cfg c
  have walked := walked_legacies after (fun _ _ => known_of_byId) opening legacy
  have reached := walked_allocations walked first
  have owned : ∀ item ∈ cfg.legacyOrders, ∀ k ∈ item.fillKeys, k ∈ cfg.seenFills b := by
    intro item member k listed
    rw [← met, reached.allocated]
    exact .inl ⟨item, by simpa using member, listed⟩
  have booked : ∀ item ∈ b.allocations, item.fillKey ∈ cfg.seenFills b := by
    intro item member
    rw [← met, reached.allocated]
    exact .inr (List.mem_map_of_mem (by simpa using member))
  have start : Tally.Earlier (cfg.seenFills b) (cfg.openingTally c) (cfg.openingTally b) :=
    ⟨rfl, rfl, rfl, (h.byFill entries joined).1, (h.byFill entries joined).2⟩
  have known := fun {cid : String} {later : SourceOrderRecord} =>
    @Earlier.records cfg b c items h before after cid later
  obtain ⟨checkpoint', legacy', same⟩ := foldlM_follows
    (fun item member _ _ _ progress turn =>
      checkLegacyOrder_earlier h (fun _ _ => known) (owned item member)
        (fun _ _ found own => h.byId before entries distinct joined found own) progress turn)
    start legacy
  obtain ⟨u, allocations', same'⟩ := foldlM_follows
    (fun item member _ _ _ progress turn =>
      checkAllocation_earlier (fun _ _ => known) (booked item member) progress turn)
    same first
  refine ⟨checkpoint', legacy', u, allocations', ?_, ?_, ?_⟩
  · rw [← same'.allocated, met]
  · apply entries_eq_nil
    intro k
    by_cases own : k ∈ cfg.seenFills b
    · apply same'.intents.absent own
      rw [← walks.intents k, Dict.get?, spent]
      · rfl
      · intro listed
        obtain ⟨item, member, rfl⟩ := List.mem_map.1 listed
        exact h.fresh item member own
    · exact same'.intents.others k own
  · rintro ⟨entry, member, differs⟩
    apply differs
    rw [before.entries] at member
    obtain ⟨v, there, member⟩ := List.mem_flatMap.1 member
    have found := ((b.views v).sourceOrders.mem_entries_iff _ _).1 member
    obtain ⟨new, view, -⟩ := h.views v there
    obtain ⟨later, held, row⟩ := forall₂_left view.orders.flip member
    have found' : (c.views v).sourceOrders.get? entry.1 = some later.2 := by
      rw [← row.1]
      exact ((c.views v).sourceOrders.mem_entries_iff _ _).1 held
    have total := walks.totals entry.1
    rw [← same'.totals]
    have ends : (t.totals.get? entry.1).getD 0 = later.2.filledOunces := by
      by_contra other
      apply totals
      refine ⟨later, ?_, ?_⟩
      · rw [after.entries]
        exact List.mem_flatMap.2 ⟨v, there, held⟩
      · rwa [row.1]
    rw [ends, h.filled v there entry.1 entry.2 later.2 found found'] at total
    exact (add_right_cancel total).symm

/-- A book that validates did so before its last fills, as far as its freezes go together. -/
theorem validate_earlier (frozen : b.cycleFreezeOnly = true → ∀ v ∈ cfg.viewKeys,
      ¬missing (b.views v).sourceFreezeReason ∧
        (b.views v).sourceFreezeReason = (b.views .bid).sourceFreezeReason)
    (valid : cfg.validate c = .ok ()) : cfg.validate b = .ok () := by
  unfold validate at valid ⊢
  rw [bind_unit_eq_ok, bind_unit_eq_ok, bind_eq_ok] at valid ⊢
  obtain ⟨shared, -, many, viewed, valid⟩ := valid
  rw [bind_unit_eq_ok] at valid
  obtain ⟨few, viewed', within⟩ := foldlM_follows (R := fun many few : Identities =>
      few.Within many) (g := checkView b)
    (fun v known _ _ _ within turn => by
      obtain ⟨new, view, -⟩ := h.views v known
      exact checkView_earlier view within turn)
    (t := {}) ⟨by simp, by simp, by simp, by simp, by simp, by simp, by simp⟩ viewed
  refine ⟨shared, ?_, few, viewed', ?_⟩
  · rw [raiseIf_eq_ok]
    rintro ⟨only, v, known, held | apart⟩
    · exact (frozen only v known).1 held
    · exact apart (frozen only v known).2
  · rw [bind_unit_eq_ok]
    have apart := raiseIf_eq_ok.1 valid.1
    rw [not_not] at apart
    refine ⟨raiseIf_eq_ok.2 (not_not.2 ?_), ?_⟩
    · exact (apart.mono_left within.sourceIds).mono_right within.hedgeIds
    · exact validateAllocations_earlier h (recorded_of_loop viewed') (recorded_of_loop viewed)
        (views_met viewed').1 valid.2

end Validated

end OwnerConfig

end ArbNautilus.Store
