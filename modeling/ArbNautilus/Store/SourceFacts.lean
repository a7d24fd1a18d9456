import ArbNautilus.Store.HedgeFacts
import ArbNautilus.Store.SourceProjection

/-! What the walk over the source orders establishes. -/

namespace ArbNautilus.Store.SourceProjection

open Base Native HedgeProjection

theorem checkedFills_eq_ok {route : NativeRoute} {order : Order} {record : SourceOrderRecord}
    {fills : List OrderFilled} (h : checkedFills route order record = .ok fills) :
    fills = order.fills ∧ order.clientOrderId = record.clientOrderId ∧
      '|' ∉ record.clientOrderId.toList ∧ totalQty fills ≤ record.quantityOunces ∧
      ∀ fill ∈ fills, fill.clientOrderId = record.clientOrderId ∧
        fill.orderSide = record.side.native ∧ 0 < fill.lastQty := by
  unfold checkedFills at h
  dsimp only at h
  split at h
  · simp only [bind_eq_ok, raiseIf_eq_ok, pure_eq_ok, exists_const, not_or, not_lt] at h
    obtain ⟨facts, owned, sound, ⟨-, fits, -⟩, rfl⟩ := h
    simp only [not_not] at facts
    obtain ⟨-, -, -, named, -, bar, -⟩ := facts
    refine ⟨rfl, named, bar, fits, ?_⟩
    intro fill member
    have sound := fun bad => sound ⟨fill, member, bad⟩
    simp only [not_or, not_not, imp_false, not_le] at sound
    obtain ⟨-, -, -, -, side, -, positive⟩ := sound
    obtain ⟨event, listed, same⟩ := List.mem_filterMap.1 member
    have owner : event.owner.clientOrderId = order.clientOrderId := by
      by_contra other
      apply owned
      exact ⟨event, listed, fun equal => other (by rw [equal])⟩
    cases event with
    | filled filled =>
      cases same
      exact ⟨owner.trans named, side, positive⟩
    | initialized | other => cases same
  · cases h

/-- Another record of the same order that its fills still fit. -/
theorem checkedFills_grown {route : NativeRoute} {order : Order} {record grown : SourceOrderRecord}
    (h : checkedFills route order record = .ok order.fills)
    (cid : grown.clientOrderId = record.clientOrderId) (side : grown.side = record.side)
    (quantity : grown.quantityOunces = record.quantityOunces)
    (account : grown.sourceAccountId = record.sourceAccountId) (positive : 0 ≤ grown.filledOunces)
    (fits : grown.filledOunces ≤ record.quantityOunces) :
    checkedFills route order grown = .ok order.fills := by
  unfold checkedFills at h ⊢
  dsimp only at h ⊢
  split at h
  · rename_i initial rest events
    rw [cid, side, quantity, account, events] at *
    simp only [bind_eq_ok, raiseIf_eq_ok, pure_eq_ok, exists_const, not_or, not_lt, and_true] at h ⊢
    obtain ⟨⟨trader, strategy, instrument, named, direction, bar, quote, size, -, -, rest⟩,
      others⟩ := h
    exact ⟨⟨trader, strategy, instrument, named, direction, bar, quote, size, positive, fits, rest⟩,
      others⟩
  · cases h

theorem claimFills_eq_ok {fills : List OrderFilled}
    {claims claims' : Dict String OrderFilled × Finset (String × String)}
    (h : fills.foldlM claimFill claims = .ok claims') :
    claims'.1.entries = claims.1.entries ++ fills.map fun fill => (key fill, fill) := by
  induction fills generalizing claims with
  | nil =>
    simp only [List.foldlM_nil, pure_eq_ok] at h
    subst h
    simp
  | cons fill fills ih =>
    simp only [List.foldlM_cons, claimFill, bind_eq_ok, raiseIf_eq_ok, pure_eq_ok, exists_const,
      not_or, not_not] at h
    obtain ⟨_, ⟨⟨fresh, -⟩, rfl⟩, loop⟩ := h
    rw [ih loop, Dict.entries_set_fresh fresh, List.append_assoc]
    rfl

/-- The number of an order's fills that its view has seen. -/
def count (store : BusinessStore) (entry : String × (ViewKey × SourceOrderRecord)) : ℕ :=
  (seenOf (store.view entry.2.1) entry.1).card

/-- The fills of an order that its view has not seen. -/
def lacking (store : BusinessStore) (orders : Dict String Order)
    (entry : String × (ViewKey × SourceOrderRecord)) : List OrderFilled :=
  (fillsOf orders entry.1).drop (count store entry)

/-- What the comparison leaves of one order. -/
structure Compared (store : BusinessStore) (route : NativeRoute) (orders : Dict String Order)
    (entry : String × (ViewKey × SourceOrderRecord)) : Prop where
  order : ∃ order, orders.get? entry.1 = some order ∧
    checkedFills { route with strategyId := store.strategyId route.strategyId entry.2.1 }
      order entry.2.2 = .ok order.fills
  seen : seenOf (store.view entry.2.1) entry.1 =
    (((fillsOf orders entry.1).map key).take (count store entry)).toFinset
  filled : totalQty ((fillsOf orders entry.1).take (count store entry)) = entry.2.2.filledOunces

/-- The facts after one more order. -/
structure Adds (store : BusinessStore) (orders : Dict String Order) (facts facts' : Facts)
    (entry : String × (ViewKey × SourceOrderRecord)) : Prop where
  native : facts'.nativeFills.entries =
    facts.nativeFills.entries ++ (fillsOf orders entry.1).map fun fill => (key fill, fill)
  suffixes : facts'.suffixes = facts.suffixes ++
    if lacking store orders entry = [] then [] else [(entry.1, lacking store orders entry)]
  prefixes : facts'.prefixes =
    facts.prefixes ++ [(entry.1, ((fillsOf orders entry.1).map key).take (count store entry))]

theorem compareOrder_eq_ok {store : BusinessStore} {route : NativeRoute}
    {orders : Dict String Order}
    {facts facts' : Facts} {entry : String × (ViewKey × SourceOrderRecord)}
    (h : compareOrder store route orders facts entry = .ok facts') :
    Compared store route orders entry ∧ Adds store orders facts facts' entry := by
  obtain ⟨cid, v, record⟩ := entry
  unfold compareOrder at h
  dsimp only at h
  split at h
  · cases h
  · rename_i order found
    have fills' : fillsOf orders cid = order.fills := by simp only [fillsOf, found]
    simp only [bind_eq_ok] at h
    obtain ⟨fills, checked, h⟩ := h
    obtain ⟨rfl, -⟩ := checkedFills_eq_ok checked
    simp only [comparePrefix, bind_eq_ok, raiseIf_eq_ok, pure_eq_ok, exists_const, not_not] at h
    obtain ⟨claims, claimed, seen, filled, rfl⟩ := h
    have native := claimFills_eq_ok claimed
    constructor
    · refine ⟨⟨order, found, checked⟩, ?_, ?_⟩
      · simpa only [count, fills'] using seen
      · simpa only [count, fills'] using filled
    · constructor
      · simpa only [fills'] using native
      · simp only [lacking, count, fills']
        split <;> simp
      · simp only [count, fills']

theorem compareOrders_eq_ok {store : BusinessStore} {route : NativeRoute}
    {orders : Dict String Order}
    {facts facts' : Facts} {entries : List (String × (ViewKey × SourceOrderRecord))}
    (h : entries.foldlM (compareOrder store route orders) facts = .ok facts') :
    (∀ entry ∈ entries, Compared store route orders entry) ∧
      facts'.nativeFills.entries = facts.nativeFills.entries ++ entries.flatMap (fun entry =>
        (fillsOf orders entry.1).map fun fill => (key fill, fill)) ∧
      facts'.suffixes = facts.suffixes ++ entries.flatMap (fun entry =>
        if lacking store orders entry = [] then [] else [(entry.1, lacking store orders entry)]) ∧
      facts'.prefixes = facts.prefixes ++ entries.map fun entry =>
        (entry.1, ((fillsOf orders entry.1).map key).take (count store entry)) := by
  induction entries generalizing facts with
  | nil =>
    simp only [List.foldlM_nil, pure_eq_ok] at h
    subst h
    simp
  | cons entry entries ih =>
    simp only [List.foldlM_cons, bind_eq_ok] at h
    obtain ⟨mid, turn, loop⟩ := h
    obtain ⟨compared, adds⟩ := compareOrder_eq_ok turn
    obtain ⟨others, native, suffixes, prefixes⟩ := ih loop
    refine ⟨List.forall_mem_cons.2 ⟨compared, others⟩, ?_, ?_, ?_⟩
    · rw [native, adds.native, List.flatMap_cons, List.append_assoc]
    · rw [suffixes, adds.suffixes, List.flatMap_cons, List.append_assoc]
    · rw [prefixes, adds.prefixes, List.map_cons, List.append_assoc, List.singleton_append]

section Recorded

variable {s : StoreState} {fills : Dict String OrderFilled}

theorem unrecorded_eq_false {intent : HedgeIntent} : Unrecorded s fills intent = false ↔
    ∃ fill record, fills.get? intent.fillKey = some fill ∧
      s.sourceOrders.get? intent.sourceClientOrderId = some record ∧
      intent.fillKey ∈ s.seenSourceFills ∧ intent.sourceClientOrderId = fill.clientOrderId ∧
      intent.sourceTradeId = fill.tradeId ∧ intent.sourceSide = record.side ∧
      intent.sourceFillOunces = fill.lastQty := by
  unfold Unrecorded
  cases fills.get? intent.fillKey with
  | none => simp
  | some fill =>
    cases s.sourceOrders.get? intent.sourceClientOrderId with
    | none => simp
    | some record => simp

/-- What is recorded of an intent is in the native fills. -/
def Backed (s : StoreState) (fills : Dict String OrderFilled) (entry : String × HedgeIntent) :
    Prop :=
  entry.1 = entry.2.intentId ∧ Unrecorded s fills entry.2 = false

theorem checkRecordedIntents_eq_ok {entries : List (String × HedgeIntent)}
    {claimed claimed' : Finset String} :
    entries.foldlM (checkRecordedIntent s fills) claimed = .ok claimed' ↔
      (∀ entry ∈ entries, Backed s fills entry) ∧ (entries.map (·.2.fillKey)).Nodup ∧
      (∀ entry ∈ entries, entry.2.fillKey ∉ claimed) ∧
      claimed' = claimed ∪ (entries.map (·.2.fillKey)).toFinset := by
  induction entries generalizing claimed with
  | nil => simpa using eq_comm
  | cons entry entries ih =>
    simp only [List.foldlM_cons, checkRecordedIntent, bind_eq_ok, raiseIf_eq_ok, pure_eq_ok,
      exists_const,
      not_or, not_not, Bool.not_eq_true, List.forall_mem_cons, List.map_cons, List.nodup_cons,
      List.toFinset_cons]
    constructor
    · rintro ⟨_, ⟨⟨named, fresh⟩, backed, rfl⟩, loop⟩
      obtain ⟨others, nodup, apart, rfl⟩ := ih.1 loop
      refine ⟨⟨⟨named, backed⟩, others⟩, ⟨?_, nodup⟩, ⟨fresh, ?_⟩, ?_⟩
      · intro again
        obtain ⟨other, member, same⟩ := List.mem_map.1 again
        exact apart other member (by rw [same]; exact Finset.mem_insert_self _ _)
      · exact fun other member known => apart other member (Finset.mem_insert_of_mem known)
      · rw [Finset.insert_union, Finset.union_insert]
    · rintro ⟨⟨⟨named, backed⟩, others⟩, ⟨first, nodup⟩, ⟨fresh, apart⟩, rfl⟩
      refine ⟨_, ⟨⟨named, fresh⟩, backed, rfl⟩, ih.2 ⟨others, nodup, ?_, ?_⟩⟩
      · intro other member known
        obtain same | known := Finset.mem_insert.1 known
        · exact first (List.mem_map.2 ⟨other, member, same⟩)
        · exact apart other member known
      · rw [Finset.insert_union, Finset.union_insert]

theorem checkRecordedFacts_eq_ok {view : ViewKey → StoreState} {keys : List ViewKey}
    {claimed claimed' : Finset String} :
    keys.foldlM (checkRecordedFacts view fills) claimed = .ok claimed' ↔
      (∀ v ∈ keys, ∀ entry ∈ (view v).hedgeIntents.entries, Backed (view v) fills entry) ∧
      ((intentsOf view keys).map (·.2.fillKey)).Nodup ∧
      (∀ held ∈ intentsOf view keys, held.2.fillKey ∉ claimed) ∧
      claimed' = claimed ∪ ((intentsOf view keys).map (·.2.fillKey)).toFinset := by
  induction keys generalizing claimed with
  | nil => simpa [intentsOf] using eq_comm
  | cons v keys ih =>
    have split : intentsOf view (v :: keys) =
        ((view v).hedgeIntents.values.map fun intent => (v, intent)) ++ intentsOf view keys := rfl
    have own : (((view v).hedgeIntents.values.map fun intent => (v, intent)).map
        fun held : ViewKey × HedgeIntent => held.2.fillKey) =
        (view v).hedgeIntents.entries.map (·.2.fillKey) := by
      rw [Dict.values, List.map_map, List.map_map]
      rfl
    rw [List.foldlM_cons, split, List.map_append, own, List.nodup_append, List.toFinset_append]
    simp only [bind_eq_ok, checkRecordedFacts, checkRecordedIntents_eq_ok, List.forall_mem_cons,
      List.mem_append, List.mem_map, Dict.values]
    constructor
    · rintro ⟨_, ⟨backed, nodup, fresh, rfl⟩, loop⟩
      obtain ⟨others, nodup', apart, rfl⟩ := ih.1 loop
      refine ⟨⟨backed, others⟩, ⟨nodup, nodup', ?_⟩, ?_, ?_⟩
      · rintro _ ⟨entry, member, rfl⟩ _ ⟨held, there, rfl⟩ same
        apply apart held there
        rw [← same, Finset.mem_union, List.mem_toFinset]
        exact .inr (List.mem_map.2 ⟨entry, member, rfl⟩)
      · rintro held (⟨_, ⟨entry, member, rfl⟩, rfl⟩ | there) known
        · exact fresh entry member known
        · exact apart held there (Finset.mem_union_left _ known)
      · rw [Finset.union_assoc]
    · rintro ⟨⟨backed, others⟩, ⟨nodup, nodup', distinct⟩, apart, rfl⟩
      refine ⟨_, ⟨backed, nodup, ?_, rfl⟩, ih.2 ⟨others, nodup', ?_, ?_⟩⟩
      · intro entry member
        exact apart (v, entry.2) (.inl ⟨entry.2, ⟨entry, member, rfl⟩, rfl⟩)
      · intro held there known
        obtain known | known := Finset.mem_union.1 known
        · exact apart held (.inr there) known
        · obtain ⟨entry, member, same⟩ := List.mem_map.1 (List.mem_toFinset.1 known)
          exact distinct _ ⟨entry, member, rfl⟩ _ ⟨held, there, rfl⟩ same
      · rw [Finset.union_assoc]

end Recorded

theorem gather_eq_ok {store : BusinessStore} {orders : List Order} {route : NativeRoute}
    {facts : Facts} :
    gather store orders route = .ok facts ↔
      store.checkOwner (·.sourceInstrumentId) route.instrumentId
        "source projection Maker instrument differs" = .ok () ∧
      (∀ v ∈ store.viewKeys, checkIdentities store.view v = .ok ()) ∧
      ((records store).entries.length = (recordEntries store).length ∧
        (byId orders).entries.length = orders.length ∧
        (records store).keys.toFinset = (byId orders).keys.toFinset) ∧
      (records store).entries.foldlM (compareOrder store route (byId orders)) {} = .ok facts ∧
      (∀ v ∈ store.viewKeys, (store.view v).seenSourceFills ⊆ facts.nativeFills.keys.toFinset) ∧
      (∃ claimed, store.viewKeys.foldlM (checkRecordedFacts store.view facts.nativeFills) ∅ =
        .ok claimed) ∧
      checkBalance store facts = .ok () := by
  simp only [gather, bind_eq_ok, raiseIf_eq_ok, pure_eq_ok, exists_const, not_or, not_not,
    not_exists, not_and]
  constructor
  · rintro ⟨⟨⟩, owner, ⟨⟩, identities, sets, found, loop, seen, claimed, recorded, ⟨⟩, balance, rfl⟩
    exact ⟨owner, forM_eq_ok.1 identities, sets, loop, seen, ⟨claimed, recorded⟩, balance⟩
  · rintro ⟨owner, identities, sets, loop, seen, ⟨claimed, recorded⟩, balance⟩
    exact ⟨(), owner, (), forM_eq_ok.2 identities, sets, facts, loop, seen, claimed, recorded, (),
      balance, rfl⟩

theorem checkIdentities_eq_ok {view : ViewKey → StoreState} {v : ViewKey} :
    checkIdentities view v = .ok () ↔
      (∀ entry ∈ (view v).sourceOrders.entries, entry.1 ≠ "" ∧ entry.1 = entry.2.clientOrderId) ∧
      ∀ active ∈ (view v).activeSourceOrderId, (view v).sourceOrders.get? active ≠ none := by
  simp only [checkIdentities, raiseIf_eq_ok, not_or, not_exists, not_and, not_not, ne_eq]

/-- What is known of a store whose source orders were compared with their native ones. -/
structure Gathered (store : BusinessStore) (orders : List Order) (route : NativeRoute)
    (facts : Facts) : Prop where
  named : ∀ v ∈ store.viewKeys, ∀ entry ∈ (store.view v).sourceOrders.entries,
    entry.1 ≠ "" ∧ entry.1 = entry.2.clientOrderId
  distinct : ((recordEntries store).map Prod.fst).Nodup
  compared : ∀ entry ∈ recordEntries store, Compared store route (byId orders) entry
  native : facts.nativeFills.entries = (recordEntries store).flatMap fun entry =>
    (fillsOf (byId orders) entry.1).map fun fill => (key fill, fill)
  suffixes : facts.suffixes = (recordEntries store).flatMap fun entry =>
    if lacking store (byId orders) entry = [] then []
    else [(entry.1, lacking store (byId orders) entry)]
  prefixes : facts.prefixes = (recordEntries store).map fun entry =>
    (entry.1, ((fillsOf (byId orders) entry.1).map key).take (count store entry))
  backed : ∀ v ∈ store.viewKeys, ∀ entry ∈ (store.view v).hedgeIntents.entries,
    Backed (store.view v) facts.nativeFills entry
  unique : ((intentsOf store.view store.viewKeys).map (·.2.fillKey)).Nodup

theorem records_entries {store : BusinessStore}
    (h : (records store).entries.length = (recordEntries store).length) :
    (records store).entries = recordEntries store :=
  Dict.entries_ofList h

theorem gathered {store : BusinessStore} {orders : List Order} {route : NativeRoute} {facts : Facts}
    (h : gather store orders route = .ok facts) : Gathered store orders route facts := by
  obtain ⟨-, identities, ⟨whole, -, -⟩, loop, -, ⟨claimed, recorded⟩, -⟩ := gather_eq_ok.1 h
  have entries := records_entries whole
  rw [entries] at loop
  obtain ⟨compared, native, suffixes, prefixes⟩ := compareOrders_eq_ok loop
  obtain ⟨backed, unique, -⟩ := checkRecordedFacts_eq_ok.1 recorded
  refine ⟨fun v known => (checkIdentities_eq_ok.1 (identities v known)).1, ?_, compared, ?_, ?_, ?_,
    backed, unique⟩
  · rw [← entries]
    exact (records store).nodup
  · simpa [Dict.empty] using native
  · simpa using suffixes
  · simpa using prefixes

section Gathered

variable {store : BusinessStore} {orders : List Order} {route : NativeRoute} {facts : Facts}
  (h : Gathered store orders route facts)

theorem mem_recordEntries {entry : String × (ViewKey × SourceOrderRecord)} :
    entry ∈ recordEntries store ↔ entry.2.1 ∈ store.viewKeys ∧ entry.1 = entry.2.2.clientOrderId ∧
      entry.2.2 ∈ (store.view entry.2.1).sourceOrders.values := by
  obtain ⟨cid, v, record⟩ := entry
  simp only [recordEntries, List.mem_flatMap, List.mem_map, Prod.mk.injEq]
  constructor
  · rintro ⟨_, known, _, member, rfl, rfl, rfl⟩
    exact ⟨known, rfl, member⟩
  · rintro ⟨known, rfl, member⟩
    exact ⟨v, known, record, member, rfl, rfl, rfl⟩

include h

theorem Gathered.held {entry : String × (ViewKey × SourceOrderRecord)}
    (member : entry ∈ recordEntries store) :
    (store.view entry.2.1).sourceOrders.get? entry.1 = some entry.2.2 := by
  obtain ⟨known, named, listed⟩ := mem_recordEntries.1 member
  obtain ⟨k, found⟩ := (Dict.mem_values_iff _ _).1 listed
  have same := (h.named _ known (k, entry.2.2) ((Dict.mem_entries_iff _ _ _).2 found)).2
  dsimp only at same
  rw [named, ← same]
  exact found

theorem Gathered.listed {v : ViewKey} (known : v ∈ store.viewKeys) {cid : String}
    {record : SourceOrderRecord}
    (found : (store.view v).sourceOrders.get? cid = some record) :
    (cid, v, record) ∈ recordEntries store := by
  have same := (h.named v known (cid, record) ((Dict.mem_entries_iff _ _ _).2 found)).2
  exact mem_recordEntries.2 ⟨known, same, (Dict.mem_values_iff _ _).2 ⟨cid, found⟩⟩

/-- An order is of one view. -/
theorem Gathered.sole {entry other : String × (ViewKey × SourceOrderRecord)}
    (member : entry ∈ recordEntries store) (there : other ∈ recordEntries store)
    (same : other.1 = entry.1) : other = entry :=
  List.inj_on_of_nodup_map h.distinct there member same

theorem Gathered.mem_native {k : String} {fill : OrderFilled} :
    facts.nativeFills.get? k = some fill ↔
    k = key fill ∧ ∃ entry ∈ recordEntries store, fill ∈ fillsOf (byId orders) entry.1 := by
  rw [← Dict.mem_entries_iff, h.native]
  simp only [List.mem_flatMap, List.mem_map, Prod.mk.injEq]
  constructor
  · rintro ⟨entry, member, fill', listed, rfl, rfl⟩
    exact ⟨rfl, entry, member, listed⟩
  · rintro ⟨rfl, entry, member, listed⟩
    exact ⟨entry, member, fill, listed, rfl, rfl⟩

theorem Gathered.nodup_keys {entry : String × (ViewKey × SourceOrderRecord)}
    (member : entry ∈ recordEntries store) : ((fillsOf (byId orders) entry.1).map key).Nodup := by
  have nodup := facts.nativeFills.nodup
  rw [h.native, List.map_flatMap, List.nodup_flatMap] at nodup
  have own := nodup.1 entry member
  rwa [List.map_map] at own

theorem Gathered.order {entry : String × (ViewKey × SourceOrderRecord)}
    (member : entry ∈ recordEntries store) :
    ∃ order, (byId orders).get? entry.1 = some order ∧ fillsOf (byId orders) entry.1 = order.fills ∧
      '|' ∉ entry.1.toList ∧ totalQty order.fills ≤ entry.2.2.quantityOunces ∧
      checkedFills { route with strategyId := store.strategyId route.strategyId entry.2.1 } order
        entry.2.2 =
        .ok order.fills ∧
      ∀ fill ∈ order.fills, fill.clientOrderId = entry.1 ∧ fill.orderSide = entry.2.2.side.native ∧
        0 < fill.lastQty := by
  obtain ⟨order, found, checked⟩ := (h.compared entry member).order
  obtain ⟨-, -, bar, fits, each⟩ := checkedFills_eq_ok checked
  have named := (mem_recordEntries.1 member).2.1
  refine ⟨order, found, by simp only [fillsOf, found], ?_, fits, checked, ?_⟩
  · rwa [named]
  · rwa [named]

theorem Gathered.fill {entry : String × (ViewKey × SourceOrderRecord)}
    (member : entry ∈ recordEntries store)
    {fill : OrderFilled} (listed : fill ∈ fillsOf (byId orders) entry.1) :
    fill.clientOrderId = entry.1 ∧ fill.orderSide = entry.2.2.side.native ∧ 0 < fill.lastQty := by
  obtain ⟨order, -, fills, -, -, -, each⟩ := h.order member
  rw [fills] at listed
  exact each fill listed

/-- A key of one of an order's fills names that order. -/
theorem Gathered.head_key {entry : String × (ViewKey × SourceOrderRecord)}
    (member : entry ∈ recordEntries store) {fill : OrderFilled}
    (listed : fill ∈ fillsOf (byId orders) entry.1) :
    (splitText '|' (key fill)).head? = some entry.1 := by
  obtain ⟨order, -, -, bar, -⟩ := h.order member
  rw [key, (h.fill member listed).1, show "|" = String.singleton '|' from rfl, String.append_assoc,
    String.append_assoc, splitText_append bar]
  rfl

/-- A fill that an order lacks was not seen. -/
theorem Gathered.unseen {entry : String × (ViewKey × SourceOrderRecord)}
    (member : entry ∈ recordEntries store)
    {fill : OrderFilled} (lacks : fill ∈ lacking store (byId orders) entry) :
    key fill ∉ (store.view entry.2.1).seenSourceFills := by
  intro known
  have listed : fill ∈ fillsOf (byId orders) entry.1 := List.mem_of_mem_drop lacks
  have seen : key fill ∈ seenOf (store.view entry.2.1) entry.1 :=
    Finset.mem_filter.2 ⟨known, h.head_key member listed⟩
  rw [(h.compared entry member).seen, List.mem_toFinset] at seen
  have later : key fill ∈ ((fillsOf (byId orders) entry.1).map key).drop (count store entry) := by
    rw [← List.map_drop]
    exact List.mem_map_of_mem lacks
  exact (List.disjoint_take_drop (h.nodup_keys member) le_rfl) seen later

/-- No intent was recorded for a fill that an order lacks. -/
theorem Gathered.unclaimed {entry : String × (ViewKey × SourceOrderRecord)}
    (member : entry ∈ recordEntries store)
    {fill : OrderFilled} (lacks : fill ∈ lacking store (byId orders) entry) {v : ViewKey}
    (known : v ∈ store.viewKeys) {intent : HedgeIntent}
    (held : intent ∈ (store.view v).hedgeIntents.values) :
    intent.fillKey ≠ key fill := by
  intro same
  obtain ⟨k, found⟩ := (Dict.mem_values_iff _ _).1 held
  have backed := (h.backed v known (k, intent) ((Dict.mem_entries_iff _ _ _).2 found)).2
  obtain ⟨fill', record, native, source, seen, named, -⟩ := unrecorded_eq_false.1 backed
  obtain ⟨key', -⟩ := h.mem_native.1 native
  have listed : fill ∈ fillsOf (byId orders) entry.1 := List.mem_of_mem_drop lacks
  have here : facts.nativeFills.get? (key fill) = some fill :=
    h.mem_native.2 ⟨rfl, entry, member, listed⟩
  dsimp only at native source seen named
  rw [same, here] at native
  obtain rfl := Option.some.inj native
  rw [named, (h.fill member listed).1] at source
  have twin := h.sole member (h.listed known source) rfl
  rw [same] at seen
  rw [← twin] at lacks member
  exact h.unseen member lacks seen

end Gathered

/-- One order lacks fills, and its store may take them. -/
structure DueSuffix (store : BusinessStore) (orders : List Order) (route : NativeRoute)
    (facts : Facts)
    (entry : String × (ViewKey × SourceOrderRecord)) : Prop where
  gathered : Gathered store orders route facts
  member : entry ∈ recordEntries store
  lacks : lacking store (byId orders) entry ≠ []
  others : ∀ other ∈ recordEntries store, other ≠ entry → lacking store (byId orders) other = []
  tail : checkTail store (byId orders) entry.1 ((facts.prefixes.lookup entry.1).getD []) = .ok ()

theorem dueSuffix_eq_ok {store : BusinessStore} {orders : List Order} {route : NativeRoute}
    {reason : String}
    {v : ViewKey} {suffix : List SourceFill}
    (h : dueSuffix store orders route reason = .ok (some (v, suffix))) :
    reason ≠ "" ∧ ∃ facts entry, gather store orders route = .ok facts ∧
      DueSuffix store orders route facts entry ∧ v = entry.2.1 ∧
      suffix = (lacking store (byId orders) entry).map (business entry.2.2.side) := by
  simp only [dueSuffix, bind_eq_ok, raiseIf_eq_ok, exists_const] at h
  obtain ⟨named, facts, gathers, h⟩ := h
  refine ⟨named, ?_⟩
  have all := gathered gathers
  split at h
  · cases h
  · rename_i cid fills only
    rw [bind_unit_eq_ok] at h
    obtain ⟨tail, h⟩ := h
    split at h
    · cases h
    · rename_i v' record found
      cases h
      have whole := (gather_eq_ok.1 gathers).2.2.1.1
      have member : (cid, v, record) ∈ recordEntries store := by
        rw [← records_entries whole]
        exact (Dict.mem_entries_iff _ _ _).2 found
      have shown : ∀ other ∈ recordEntries store, lacking store (byId orders) other ≠ [] →
          other.1 = cid ∧ lacking store (byId orders) other = fills := by
        intro other there some'
        have listed : (other.1, lacking store (byId orders) other) ∈ facts.suffixes := by
          rw [all.suffixes, List.mem_flatMap]
          refine ⟨other, there, ?_⟩
          rw [if_neg some']
          exact List.mem_singleton_self _
        rw [only, List.mem_singleton] at listed
        exact Prod.mk.inj listed
      have some' : lacking store (byId orders) (cid, v, record) = fills ∧ fills ≠ [] := by
        have listed : (cid, fills) ∈ facts.suffixes := by
          rw [only]
          exact List.mem_singleton_self _
        rw [all.suffixes, List.mem_flatMap] at listed
        obtain ⟨other, there, listed⟩ := listed
        split at listed
        · cases listed
        · rename_i lacks
          obtain ⟨rfl, rfl⟩ := Prod.mk.inj (List.mem_singleton.1 listed)
          rw [all.sole member there rfl] at lacks ⊢
          exact ⟨rfl, lacks⟩
      obtain ⟨rfl, lacks⟩ := some'
      refine ⟨facts, (cid, v, record), gathers, ⟨all, member, lacks, ?_, tail⟩, rfl, rfl⟩
      intro other there apart
      by_contra lacks'
      exact apart (all.sole member there (shown other there lacks').1)
  · cases h

end ArbNautilus.Store.SourceProjection
