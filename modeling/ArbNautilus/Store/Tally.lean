import ArbNautilus.Store.Balances
import ArbNautilus.Store.Custody

namespace ArbNautilus.Store

open Base

namespace OwnerConfig

section Views

variable {b : Book} {v : ViewKey} {ids ids' : Identities}

theorem checkRecord_loop {side : Option BusinessOrderSide}
    {entries : List (String × SourceOrderRecord)}
    (loop : entries.foldlM (checkRecord side) ids = .ok ids') :
    ids'.sourceIds = ids.sourceIds ∪ (entries.map Prod.fst).toFinset ∧
      ∀ entry ∈ entries, entry.1 ∉ ids.sourceIds ∧
        ∀ expected ∈ side, entry.2.side = expected := by
  induction entries generalizing ids with
  | nil =>
    simp only [List.foldlM_nil, pure_eq_ok] at loop
    simp [loop]
  | cons entry entries ih =>
    simp only [List.foldlM_cons, bind_eq_ok] at loop
    obtain ⟨next, turn, loop⟩ := loop
    simp only [checkRecord, bind_unit_eq_ok, raiseIf_eq_ok, pure_eq_ok, not_or] at turn
    obtain ⟨⟨-, -, fresh⟩, sided, rfl⟩ := turn
    obtain ⟨grown, rest⟩ := ih loop
    constructor
    · ext id
      simp [grown]
    · rintro other (_ | ⟨_, member⟩)
      · exact ⟨fresh, by simpa using sided⟩
      · exact ⟨fun old => (rest other member).1 (by simp [old]), (rest other member).2⟩

theorem checkIntent_loop {s : StoreState} {side : Option BusinessOrderSide}
    {entries : List (String × HedgeIntent)}
    {acc acc' : Identities × Dict String (Option String)}
    (loop : entries.foldlM (checkIntent s side) acc = .ok acc') :
    acc'.1.sourceIds = acc.1.sourceIds := by
  apply foldlM_invariant (P := fun reached => reached.1.sourceIds = acc.1.sourceIds) _ rfl loop
  rintro ⟨ids, accounts⟩ entry next kept turn
  simp only [checkIntent, bind_unit_eq_ok, raiseIf_eq_ok] at turn
  obtain ⟨-, -, turn⟩ := turn
  split at turn
  · cases turn
  · simp only [bind_unit_eq_ok, raiseIf_eq_ok, pure_eq_ok] at turn
    obtain ⟨-, -, -, -, rfl⟩ := turn
    exact kept

theorem checkIntent_keyed {s : StoreState} {side : Option BusinessOrderSide}
    {acc acc' : Identities × Dict String (Option String)} {entry : String × HedgeIntent}
    (turn : checkIntent s side acc entry = .ok acc') : entry.2.intentId = entry.1 := by
  simp only [checkIntent, bind_unit_eq_ok, raiseIf_eq_ok, not_or, not_not] at turn
  exact turn.1.1.symm

/-- Every intent of a view is under its own identity. -/
def Keyed (s : StoreState) : Prop :=
  ∀ k intent, s.hedgeIntents.get? k = some intent → intent.intentId = k

theorem checkView_eq_ok (checked : checkView b ids v = .ok ids') :
    ids'.sourceIds = ids.sourceIds ∪ ((b.views v).sourceOrders.keys).toFinset ∧
      (∀ entry ∈ (b.views v).sourceOrders.entries, entry.1 ∉ ids.sourceIds ∧
        ∀ expected ∈ viewSide v, entry.2.side = expected) ∧ Keyed (b.views v) := by
  unfold checkView at checked
  rw [bind_unit_eq_ok, bind_unit_eq_ok, bind_eq_ok] at checked
  obtain ⟨-, -, walked, records, checked⟩ := checked
  rw [bind_unit_eq_ok] at checked
  simp only [bind_eq_ok, pure_eq_ok] at checked
  obtain ⟨-, _, -, ⟨after, _⟩, intents, _, -, rfl⟩ := checked
  obtain ⟨grown, recorded⟩ := checkRecord_loop records
  refine ⟨(checkIntent_loop intents).trans grown, recorded, ?_⟩
  intro k intent found
  obtain ⟨_, _, turn⟩ :=
    foldlM_turns intents _ (((b.views v).hedgeIntents.mem_entries_iff k intent).2 found)
  exact checkIntent_keyed turn

theorem checkView_loop {views : List ViewKey} (loop : views.foldlM (checkView b) ids = .ok ids') :
    ((views.flatMap fun v => (b.views v).sourceOrders.entries).map Prod.fst).Nodup ∧
      ∀ v ∈ views, ∀ entry ∈ (b.views v).sourceOrders.entries, entry.1 ∉ ids.sourceIds ∧
        ∀ expected ∈ viewSide v, entry.2.side = expected := by
  induction views generalizing ids with
  | nil => simp
  | cons v views ih =>
    simp only [List.foldlM_cons, bind_eq_ok] at loop
    obtain ⟨next, turn, loop⟩ := loop
    obtain ⟨grown, recorded, -⟩ := checkView_eq_ok turn
    obtain ⟨nodup, rest⟩ := ih loop
    constructor
    · rw [List.flatMap_cons, List.map_append]
      apply (b.views v).sourceOrders.nodup.append nodup
      intro id here there
      obtain ⟨entry, member, rfl⟩ := List.mem_map.1 there
      obtain ⟨other, known, member⟩ := List.mem_flatMap.1 member
      apply (rest other known entry member).1
      rw [grown]
      exact Finset.mem_union_right _ (List.mem_toFinset.2 here)
    · rintro other (_ | ⟨_, known⟩) entry member
      · exact recorded entry member
      · obtain ⟨apart, sided⟩ := rest other known entry member
        exact ⟨fun old => apart (grown ▸ Finset.mem_union_left _ old), sided⟩

end Views

/-- What the walk over the views leaves behind: no order is in two views, and a Maker view
trades one side. -/
structure Recorded (cfg : OwnerConfig) (b : Book) : Prop where
  entries : (cfg.records b).entries = cfg.viewKeys.flatMap fun v => (b.views v).sourceOrders.entries
  side : ∀ v ∈ cfg.viewKeys, ∀ entry ∈ (b.views v).sourceOrders.entries,
    ∀ expected ∈ viewSide v, entry.2.side = expected
  keyed : ∀ v ∈ cfg.viewKeys, Keyed (b.views v)

variable {cfg : OwnerConfig} {b : Book}

theorem recorded_of_loop {ids ids' : Identities}
    (loop : cfg.viewKeys.foldlM (checkView b) ids = .ok ids') : Recorded cfg b := by
  obtain ⟨nodup, recorded⟩ := checkView_loop loop
  refine ⟨Dict.entries_ofList_of_nodup nodup,
    fun v known entry member => (recorded v known entry member).2, fun v known => ?_⟩
  obtain ⟨_, _, turn⟩ := foldlM_turns loop v known
  exact (checkView_eq_ok turn).2.2

theorem Recorded.total (h : Recorded cfg b) (f : SourceOrderRecord → ℚ) :
    ((cfg.records b).entries.map fun entry => f entry.2).sum =
      (cfg.viewKeys.map fun v => (b.views v).sourceOrders.total f).sum := by
  rw [h.entries]
  induction cfg.viewKeys with
  | nil => rfl
  | cons v views ih =>
    simp only [List.flatMap_cons, List.map_append, List.sum_append, ih, List.map_cons,
      List.sum_cons, Dict.total, Dict.values, List.map_map, Function.comp_def]

/-- An order under a direction's view trades that direction. -/
theorem Recorded.legacySign (h : Recorded cfg b) {cid : String} {record : SourceOrderRecord}
    {direction : SourceDirection} (found : (cfg.records b).get? cid = some record)
    (held : (b.views direction.view).sourceOrders.get? cid ≠ none) :
    record.side.sign = direction.sign := by
  obtain ⟨other, held⟩ := Option.ne_none_iff_exists'.1 held
  have member := ((b.views direction.view).sourceOrders.mem_entries_iff _ _).2 held
  have joined : (cid, other) ∈ (cfg.records b).entries := by
    rw [h.entries]
    exact List.mem_flatMap.2 ⟨_, cfg.direction_known direction, member⟩
  have same : record = other := by
    rw [Dict.mem_entries_iff, found] at joined
    exact Option.some.inj joined
  have sided := h.side _ (cfg.direction_known direction) _ member
  subst same
  cases direction
  · rw [sided .buy rfl]; rfl
  · rw [sided .sell rfl]; rfl

/-- The signed amount of the totals, each order's under its side. -/
def signedTotals (cfg : OwnerConfig) (b : Book) (totals : Dict String ℚ) : ℚ :=
  ((cfg.records b).entries.map fun entry =>
    entry.2.side.sign * (totals.get? entry.1).getD 0).sum

theorem signedTotals_set (totals : Dict String ℚ) {cid : String} {record : SourceOrderRecord}
    (found : (cfg.records b).get? cid = some record) (amount : ℚ) :
    cfg.signedTotals b (totals.set cid amount) = cfg.signedTotals b totals +
      record.side.sign * (amount - (totals.get? cid).getD 0) := by
  have member := ((cfg.records b).mem_entries_iff _ _).2 found
  have moved := Dict.sum_get?_set (cfg.records b).nodup
    (fun record total => record.side.sign * total.getD 0) member totals amount
  simp only [Option.getD_some] at moved
  rw [signedTotals, moved, signedTotals]
  ring

/-- What an allocation owns: the one intent of its quantity and opposite side, or none. -/
def Owns (item : Allocation) : Option HedgeIntent → Prop
  | none => item.allocatedOunces = 0
  | some intent => item.allocatedOunces ≠ 0 ∧
      intent.hedgeQuantityOunces = |item.allocatedOunces| ∧
      (intent.hedgeSide = .sell ↔ 0 < item.allocatedOunces)

theorem Owns.signed {item : Allocation} {intent : Option HedgeIntent} (h : Owns item intent) :
    (intent.map Ledger.signedQuantity).getD 0 = item.allocatedOunces := by
  cases intent with
  | none => exact Eq.symm h
  | some intent =>
    obtain ⟨nonzero, quantity, side⟩ := h
    rw [Option.map_some, Option.getD_some, Ledger.signedQuantity, quantity]
    by_cases sold : intent.hedgeSide = .sell
    · rw [sold, abs_of_pos (side.1 sold)]
      simp [BusinessOrderSide.hedgeSign]
    · have bought : intent.hedgeSide = .buy := by cases same : intent.hedgeSide <;> simp_all
      have negative : item.allocatedOunces ≤ 0 := not_lt.1 fun positive => sold (side.2 positive)
      rw [bought, abs_of_nonpos negative]
      simp [BusinessOrderSide.hedgeSign]

theorem fillKey_of_get? {k : String} {intent : HedgeIntent}
    (found : (cfg.intentsByFill b).get? k = some intent) : intent.fillKey = k := by
  obtain ⟨v, -, member⟩ := List.mem_flatMap.1 (Dict.mem_of_get?_ofList found)
  obtain ⟨other, -, same⟩ := List.mem_map.1 member
  simp only [Prod.mk.injEq] at same
  rw [← same.2, same.1]

/-- The fills a route saw, in order. -/
def routeFills (items : List Allocation) (r : Route) : List ℚ :=
  (items.filter (·.route = r)).map (·.signedFillOunces)

/-- The number of intents in a map. -/
def intentCount (d : Dict String HedgeIntent) : ℤ := d.total fun _ => 1

/-- The number of allocations that own an intent. -/
def owningCount (items : List Allocation) : ℤ :=
  (items.map fun item => if item.allocatedOunces = 0 then 0 else 1).sum

/-- The progress of the walk, after some legacy orders and some allocations. -/
structure Walked (cfg : OwnerConfig) (b : Book) (legacy : List LegacyOrder)
    (done : List Allocation) (t : Tally) : Prop where
  kept : ∀ k intent, t.intents.get? k = some intent → (cfg.intentsByFill b).get? k = some intent
  waiting : ∀ k, k ∉ t.allocated → t.intents.get? k = (cfg.intentsByFill b).get? k
  hedged : t.intents.total Ledger.signedQuantity + (legacy.map (·.allocatedOunces)).sum +
    (done.map (·.allocatedOunces)).sum = (cfg.intentsByFill b).total Ledger.signedQuantity
  counted : intentCount t.intents + (legacy.map fun item => (item.intentIds.length : ℤ)).sum +
    owningCount done = intentCount (cfg.intentsByFill b)
  filled : cfg.signedTotals b t.totals =
    (legacy.map fun item => item.filledOunces * item.direction.sign).sum +
      (done.map (·.signedFillOunces)).sum
  balances : ∀ r, (t.balances.get? r).getD 0 = cfg.balanceAfter done r
  replayed : ∀ r, cfg.balanceAfter done r = carryAll (cfg.openingBalance r) (routeFills done r)
  owned : ∀ item ∈ done, Owns item ((cfg.intentsByFill b).get? item.fillKey)
  allocated : ∀ k, k ∈ t.allocated ↔
    (∃ item ∈ legacy, k ∈ item.fillKeys) ∨ k ∈ done.map (·.fillKey)
  distinct : (done.map (·.fillKey)).Nodup

theorem walked_opening (cfg : OwnerConfig) (b : Book) :
    Walked cfg b [] [] (cfg.openingTally b) where
  kept := fun _ _ found => found
  waiting := fun _ _ => rfl
  hedged := by simp [openingTally]
  counted := by simp [openingTally, owningCount]
  filled := by simp [openingTally, signedTotals]
  balances := by
    intro r
    have same : (Dict.ofList (cfg.checkpointBalances.image Prod.fst)).entries =
        cfg.checkpointBalances.image Prod.fst :=
      Dict.entries_ofList_of_nodup (by
        simpa [Dict.image, List.map_map, Function.comp_def] using cfg.checkpointBalances.nodup)
    have read : (cfg.openingTally b).balances.get? r =
        (cfg.checkpointBalances.get? r).map Prod.fst := by
      rw [openingTally, Dict.get?, same, Dict.image, Dict.lookup_map, Dict.get?]
    simp [read, balanceAfter, openingBalance]
  replayed := by simp [balanceAfter, routeFills]
  owned := by simp
  allocated := by simp [openingTally]
  distinct := by simp

section Legacy

variable {byId : Dict String HedgeIntent} {item : LegacyOrder}

theorem checkLegacyIntent_loop {ids : List String} (opening : Dict String HedgeIntent)
    {acc acc' : Dict String HedgeIntent × ℚ × ℚ}
    (known : ∀ id intent, byId.get? id = some intent →
      (cfg.intentsByFill b).get? intent.fillKey = some intent)
    (kept : ∀ k intent, acc.1.get? k = some intent → opening.get? k = some intent)
    (within : ∀ k intent, opening.get? k = some intent →
      (cfg.intentsByFill b).get? k = some intent)
    (apart : ∀ k ∉ item.fillKeys, acc.1.get? k = opening.get? k)
    (hedged : acc.1.total Ledger.signedQuantity + acc.2.2 =
      opening.total Ledger.signedQuantity)
    (loop : ids.foldlM (checkLegacyIntent byId item) acc = .ok acc') :
    (∀ k intent, acc'.1.get? k = some intent → opening.get? k = some intent) ∧
      (∀ k ∉ item.fillKeys, acc'.1.get? k = opening.get? k) ∧
      acc'.1.total Ledger.signedQuantity + acc'.2.2 = opening.total Ledger.signedQuantity := by
  apply foldlM_invariant (P := fun reached : Dict String HedgeIntent × ℚ × ℚ =>
    (∀ k intent, reached.1.get? k = some intent → opening.get? k = some intent) ∧
      (∀ k ∉ item.fillKeys, reached.1.get? k = opening.get? k) ∧
      reached.1.total Ledger.signedQuantity + reached.2.2 =
        opening.total Ledger.signedQuantity) _ ⟨kept, apart, hedged⟩ loop
  rintro ⟨intents, sum, allocated⟩ id next ⟨kept, apart, hedged⟩ turn
  simp only [checkLegacyIntent] at turn
  split at turn
  · cases turn
  · rename_i intent named
    simp only [bind_unit_eq_ok, raiseIf_eq_ok, pure_eq_ok, not_or, not_not] at turn
    obtain ⟨⟨-, keyed, -, waiting⟩, rfl⟩ := turn
    obtain ⟨other, waiting⟩ := Option.ne_none_iff_exists'.1 waiting
    have same : other = intent := by
      have held := within _ _ (kept _ _ waiting)
      rw [known id intent named] at held
      exact (Option.some.inj held).symm
    subst same
    refine ⟨?_, ?_, ?_⟩
    · intro k held found
      rw [Dict.get?_erase] at found
      split at found
      · cases found
      · exact kept k held found
    · intro k outside
      rw [Dict.get?_erase, if_neg, apart k outside]
      rintro rfl
      exact outside keyed
    · rw [Dict.total_erase _ waiting, ← hedged]
      simp only [Ledger.signedQuantity]
      ring

/-- Each of a legacy order's intents is taken off once. -/
theorem checkLegacyIntent_counted {ids : List String} {acc acc' : Dict String HedgeIntent × ℚ × ℚ}
    (loop : ids.foldlM (checkLegacyIntent byId item) acc = .ok acc') :
    intentCount acc'.1 + ids.length = intentCount acc.1 := by
  induction ids generalizing acc with
  | nil =>
    simp only [List.foldlM_nil, pure_eq_ok] at loop
    simp [loop]
  | cons id ids ih =>
    simp only [List.foldlM_cons, bind_eq_ok] at loop
    obtain ⟨⟨intents, sum, allocated⟩, turn, loop⟩ := loop
    have rest := ih loop
    simp only [checkLegacyIntent] at turn
    split at turn
    · cases turn
    · simp only [bind_unit_eq_ok, raiseIf_eq_ok, pure_eq_ok, not_or] at turn
      obtain ⟨⟨-, -, -, waiting⟩, same⟩ := turn
      obtain ⟨other, waiting⟩ := Option.ne_none_iff_exists'.1 waiting
      obtain ⟨rfl, -⟩ := Prod.mk.inj same
      rw [intentCount, intentCount, Dict.total_erase _ waiting] at rest
      rw [intentCount, intentCount, List.length_cons]
      push_cast
      linarith

theorem walked_legacy {legacy : List LegacyOrder} {t t' : Tally} (recorded : Recorded cfg b)
    (known : ∀ id intent, byId.get? id = some intent →
      (cfg.intentsByFill b).get? intent.fillKey = some intent)
    (walked : Walked cfg b legacy [] t) (turn : cfg.checkLegacyOrder b byId t item = .ok t') :
    Walked cfg b (legacy ++ [item]) [] t' := by
  unfold checkLegacyOrder at turn
  dsimp only at turn
  split at turn
  · cases turn
  · rename_i record found
    rw [bind_unit_eq_ok, bind_unit_eq_ok] at turn
    simp only [raiseIf_eq_ok, bind_eq_ok, Prod.exists, pure_eq_ok, not_or, not_not] at turn
    obtain ⟨⟨first, held, -, -⟩, -, intents, sum, allocated, loop, _, ⟨total, -, -, -⟩, rfl⟩ := turn
    obtain ⟨kept, apart, hedged⟩ := checkLegacyIntent_loop t.intents known
      (fun _ _ found => found) walked.kept (fun _ _ => rfl) (by simp) loop
    refine ⟨?_, ?_, ?_, ?_, ?_, walked.balances, walked.replayed, walked.owned, ?_,
      walked.distinct⟩
    · exact fun k intent found => walked.kept k intent (kept k intent found)
    · intro k outside
      rw [Finset.mem_union, not_or, List.mem_toFinset] at outside
      rw [← walked.waiting k outside.1]
      exact apart k outside.2
    · rw [← walked.hedged, List.map_append, List.sum_append, ← hedged]
      simp [total]
      ring
    · rw [← walked.counted, ← checkLegacyIntent_counted loop, List.map_append, List.sum_append,
        List.map_singleton, List.sum_singleton]
      ring
    · have signed := recorded.legacySign found held
      rw [signedTotals_set _ found, walked.filled, first, signed, List.map_append,
        List.sum_append]
      simp
      ring
    · intro k
      simp only [Finset.mem_union, walked.allocated k, List.mem_toFinset, List.mem_append,
        List.mem_singleton, or_and_right, exists_or, exists_eq_left, List.map_nil, List.not_mem_nil,
        or_false]

end Legacy

theorem allocation_signed {item : Allocation} {side : BusinessOrderSide}
    (directed : 0 < item.signedFillOunces ↔ side = .buy) :
    side.sign * |item.signedFillOunces| = item.signedFillOunces := by
  cases side
  · rw [abs_of_pos (directed.2 rfl)]
    simp [BusinessOrderSide.sign]
  · have negative : item.signedFillOunces ≤ 0 := not_lt.1 fun positive => by
      cases directed.1 positive
    rw [abs_of_nonpos negative]
    simp [BusinessOrderSide.sign]

theorem routeFills_concat (done : List Allocation) (item : Allocation) (r : Route) :
    routeFills (done ++ [item]) r =
      routeFills done r ++ if item.route = r then [item.signedFillOunces] else [] := by
  unfold routeFills
  rw [List.filter_append, List.map_append]
  by_cases hit : item.route = r <;> simp [hit]

/-- The source order that an allocation's fill key names. -/
def sourceOf (item : Allocation) : String := (splitText '|' item.fillKey).headD ""

/-- What one allocation step has checked, and what it leaves. -/
structure Allocated (cfg : OwnerConfig) (b : Book) (t t' : Tally) (item : Allocation) : Prop where
  fresh : item.fillKey ∉ t.allocated
  source : ∃ record, (cfg.records b).get? (sourceOf item) = some record ∧
    (0 < item.signedFillOunces ↔ record.side = .buy) ∧
    t'.totals = t.totals.set (sourceOf item)
      ((t.totals.get? (sourceOf item)).getD 0 + |item.signedFillOunces|)
  rounded : item.allocatedOunces =
    nearestEven ((t.balances.get? item.route).getD 0 + item.signedFillOunces)
  owned : Owns item (t.intents.get? item.fillKey)
  allocated : t'.allocated = insert item.fillKey t.allocated
  balances : t'.balances = t.balances.set item.route
    ((t.balances.get? item.route).getD 0 + item.signedFillOunces - item.allocatedOunces)
  intents : t'.intents = t.intents.erase item.fillKey

theorem checkAllocation_eq_ok {t t' : Tally} {item : Allocation}
    (turn : cfg.checkAllocation b t item = .ok t') : Allocated cfg b t t' item := by
  unfold checkAllocation at turn
  dsimp only at turn
  rw [bind_unit_eq_ok, raiseIf_eq_ok, not_or, not_not] at turn
  obtain ⟨⟨-, fresh⟩, turn⟩ := turn
  split at turn
  · cases turn
  · rename_i record found
    rw [bind_unit_eq_ok, bind_unit_eq_ok] at turn
    simp only [raiseIf_eq_ok, not_or, not_not] at turn
    obtain ⟨⟨-, directed, -⟩, rounded, turn⟩ := turn
    split at turn
    · rename_i none
      split at turn
      · rename_i zero
        simp only [pure_eq_ok] at turn
        subst turn
        exact ⟨fresh, ⟨record, found, directed, rfl⟩, rounded, none ▸ zero, rfl, rfl, rfl⟩
      · cases turn
    · rename_i intent some
      rw [bind_unit_eq_ok, bind_unit_eq_ok] at turn
      simp only [raiseIf_eq_ok, pure_eq_ok, not_or, not_not] at turn
      obtain ⟨nonzero, ⟨quantity, -, side⟩, rfl⟩ := turn
      exact ⟨fresh, ⟨record, found, directed, rfl⟩, rounded,
        some ▸ ⟨nonzero, quantity, side⟩, rfl, rfl, rfl⟩

theorem walked_allocation {legacy : List LegacyOrder} {done : List Allocation} {t t' : Tally}
    {item : Allocation} (walked : Walked cfg b legacy done t)
    (turn : cfg.checkAllocation b t item = .ok t') : Walked cfg b legacy (done ++ [item]) t' := by
  have step := checkAllocation_eq_ok turn
  have balance : ∀ r, (t'.balances.get? r).getD 0 = cfg.balanceAfter (done ++ [item]) r := by
    intro r
    rw [step.balances, Dict.get?_set, balanceAfter_concat, ← walked.balances r]
    by_cases hit : item.route = r
    · subst hit
      rw [if_pos rfl, if_pos rfl, Option.getD_some, allocationNet]
      ring
    · rw [if_neg hit, if_neg hit, add_zero]
  refine ⟨?_, ?_, ?_, ?_, ?_, balance, ?_, ?_, ?_, ?_⟩
  · intro k intent found
    rw [step.intents, Dict.get?_erase] at found
    split at found
    · cases found
    · exact walked.kept k intent found
  · intro k outside
    rw [step.allocated, Finset.mem_insert, not_or] at outside
    rw [step.intents, Dict.get?_erase, if_neg (Ne.symm outside.1), walked.waiting k outside.2]
  · have signed := step.owned.signed
    rw [← walked.hedged, List.map_append, List.sum_append, step.intents]
    cases found : t.intents.get? item.fillKey with
    | none =>
      rw [found] at signed
      simp only [Dict.total, Dict.values, Dict.erase_of_get?_none found]
      simpa using signed.symm
    | some intent =>
      rw [found, Option.map_some, Option.getD_some] at signed
      rw [Dict.total_erase _ found, signed]
      simp
      ring
  · have owned := step.owned
    rw [← walked.counted, owningCount, owningCount, List.map_append, List.sum_append,
      List.map_singleton, List.sum_singleton, step.intents]
    cases found : t.intents.get? item.fillKey with
    | none =>
      rw [found] at owned
      rw [if_pos (show item.allocatedOunces = 0 from owned), add_zero]
      simp only [intentCount, Dict.total, Dict.values, Dict.erase_of_get?_none found]
    | some intent =>
      rw [found] at owned
      rw [intentCount, intentCount, Dict.total_erase _ found, if_neg owned.1]
      ring
  · obtain ⟨record, found, directed, totals⟩ := step.source
    rw [totals, signedTotals_set _ found, walked.filled, add_sub_cancel_left,
      allocation_signed directed, List.map_append, List.sum_append]
    simp
    ring
  · intro r
    rw [routeFills_concat, carryAll_append, ← walked.replayed r, balanceAfter_concat]
    by_cases hit : item.route = r
    · subst hit
      rw [if_pos rfl, if_pos rfl, carryAll_cons, carryAll_nil, carry, ← walked.balances,
        allocationNet, step.rounded]
      ring
    · rw [if_neg hit, if_neg hit, carryAll_nil, add_zero]
  · intro other member
    rcases List.mem_append.1 member with old | new
    · exact walked.owned other old
    · obtain rfl := List.mem_singleton.1 new
      rw [← walked.waiting _ step.fresh]
      exact step.owned
  · intro k
    rw [step.allocated, Finset.mem_insert, walked.allocated k, List.map_append, List.mem_append]
    rw [List.map_singleton, List.mem_singleton, or_comm, or_assoc]
  · rw [List.map_append]
    apply walked.distinct.append (List.nodup_singleton _)
    intro k old new
    obtain rfl := List.mem_singleton.1 new
    exact step.fresh ((walked.allocated _).2 (.inr old))

theorem walked_legacies {byId : Dict String HedgeIntent} {items : List LegacyOrder} {t t' : Tally}
    (recorded : Recorded cfg b)
    (known : ∀ id intent, byId.get? id = some intent →
      (cfg.intentsByFill b).get? intent.fillKey = some intent)
    {legacy : List LegacyOrder} (walked : Walked cfg b legacy [] t)
    (loop : items.foldlM (cfg.checkLegacyOrder b byId) t = .ok t') :
    Walked cfg b (legacy ++ items) [] t' := by
  induction items generalizing legacy t with
  | nil =>
    simp only [List.foldlM_nil, pure_eq_ok] at loop
    rw [List.append_nil]
    exact loop ▸ walked
  | cons item items ih =>
    simp only [List.foldlM_cons, bind_eq_ok] at loop
    obtain ⟨next, turn, loop⟩ := loop
    simpa using ih (walked_legacy recorded known walked turn) loop

theorem walked_allocations {items : List Allocation} {t t' : Tally} {legacy : List LegacyOrder}
    {done : List Allocation} (walked : Walked cfg b legacy done t)
    (loop : items.foldlM (cfg.checkAllocation b) t = .ok t') :
    Walked cfg b legacy (done ++ items) t' := by
  induction items generalizing done t with
  | nil =>
    simp only [List.foldlM_nil, pure_eq_ok] at loop
    rw [List.append_nil]
    exact loop ▸ walked
  | cons item items ih =>
    simp only [List.foldlM_cons, bind_eq_ok] at loop
    obtain ⟨next, turn, loop⟩ := loop
    simpa using ih (walked_allocation walked turn) loop

end OwnerConfig

end ArbNautilus.Store
