import ArbNautilus.Store.HedgeApplied
import ArbNautilus.Store.HedgeFacts

namespace ArbNautilus.Store.HedgeProjection

open Base Native

theorem missingFills_eq_ok {store : BusinessStore} {orders : List Order} {route : NativeRoute}
    {reason : String} {missing : List (ViewKey × HedgeFill)} :
    missingFills store orders route reason = .ok missing ↔
      reason ≠ "" ∧ store.checkOwner (·.hedgeInstrumentId) route.instrumentId
        "hedge projection Maker instrument differs" = .ok () ∧
      ∃ w, store.viewKeys.foldlM (walkView store.view) {} = .ok w ∧
        (Disjoint w.sources w.bindings.keys.toFinset ∧
          (byId orders).entries.length = orders.length ∧
          (byId orders).keys.toFinset = w.bindings.keys.toFinset) ∧
        ∃ c, w.bindings.entries.foldlM (countOrder store route (byId orders) store.view) {} =
          .ok c ∧
          (∀ v ∈ store.viewKeys, checkSeen store.view c v = .ok ()) ∧ c.missing = missing := by
  simp only [missingFills, bind_eq_ok, raiseIf_eq_ok, pure_eq_ok, not_or, not_not,
    Unique.exists_iff, PUnit.default_eq_unit, forM_eq_ok, ne_eq]

theorem checkSeen_eq_ok {view : ViewKey → StoreState} {c : Count} {v : ViewKey} :
    checkSeen view c v = .ok () ↔ (view v).seenHedgeFills ⊆ c.keysByView v ∧
      ∀ i ∈ (view v).hedgeIntents.values,
        c.totals i.intentId = i.hedgeFilledOunces ∧
        c.totals i.intentId ≤ i.hedgeQuantityOunces ∧
        (i.hedgePlan ≠ [] → c.currentTotals i.intentId = i.hedgeLegFilledOunces ∧
          c.totals i.intentId =
            i.hedgeLegFilledOunces + planQuantity (i.hedgePlan.take i.hedgeLegIndex)) ∧
        (i.status = .completed → c.totals i.intentId = i.hedgeQuantityOunces) := by
  simp only [checkSeen, bind_eq_ok, raiseIf_eq_ok, exists_const, not_not, forM_eq_ok, checkIntent,
    not_or, not_lt, not_and, and_assoc, ne_eq]

theorem mem_ownBindings {v : ViewKey} {i : HedgeIntent} {record : SourceOrderRecord}
    {ids : List String} {entry : String × Binding} (h : entry ∈ ownBindings v i record ids) :
    entry.1 ∈ ids ∧ entry.2.view = v ∧ entry.2.intent = i := by
  obtain ⟨⟨cid, index⟩, member, rfl⟩ := List.mem_map.1 h
  exact ⟨(List.mem_zipIdx' member).2 ▸ List.getElem_mem _, rfl, rfl⟩

theorem mem_boundEntries {s : StoreState} {v : ViewKey} {i : HedgeIntent}
    {entry : String × Binding} (h : entry ∈ boundEntries s v i) :
    entry.2.view = v ∧ entry.2.intent = i ∧
      (entry.1 ∈ boundOrders i ∨ isRejectedAttempt i entry.1) := by
  unfold boundEntries at h
  split at h
  · cases h
  · rcases List.mem_append.1 h with own | archived
    · obtain ⟨member, view, intent⟩ := mem_ownBindings own
      exact ⟨view, intent, .inl member⟩
    · obtain ⟨attempt, member, rfl⟩ := List.mem_map.1 archived
      exact ⟨rfl, rfl, .inr ⟨attempt, by simpa using member, rfl⟩⟩

theorem map_fst_ownBindings (v : ViewKey) (i : HedgeIntent) (record : SourceOrderRecord)
    (ids : List String) : (ownBindings v i record ids).map Prod.fst = ids := by
  have fst : (Prod.fst ∘ fun e : String × ℕ => (e.1, (⟨v, i, record, e.2⟩ : Binding))) =
      Prod.fst := rfl
  simp only [ownBindings, List.map_map, fst, List.zipIdx_map_fst]

/-- An archived rejection is not one of the orders of a leg. -/
theorem not_mem_boundOrders {i : HedgeIntent} {cid : String} (archived : isRejectedAttempt i cid) :
    cid ∉ boundOrders i := by
  obtain ⟨attempt, held, rfl⟩ := archived
  have planned := (i.sound.attempt attempt held).planned
  rw [Option.mem_def] at held
  rw [boundOrders, if_pos planned, IntentFields.hedgeLegOrderIds, held]
  simp

section Evidence

variable {store : BusinessStore} {orders : Dict String Order} {route : NativeRoute} {w : Walk}

theorem WalkFacts.named {view : ViewKey → StoreState} {keys : List ViewKey}
    (walk : WalkFacts view keys w) {v : ViewKey} {i : HedgeIntent}
    (held : (v, i) ∈ intentsOf view keys) :
    (view v).hedgeIntents.get? i.intentId = some i ∧ Walked (view v) (i.intentId, i) := by
  obtain ⟨known, member⟩ := mem_intentsOf.1 held
  obtain ⟨k, found⟩ := (Dict.mem_values_iff _ _).1 member
  have walked := walk.walked v known (k, i) ((Dict.mem_entries_iff _ _ _).2 found)
  obtain rfl : k = i.intentId := walked.named
  exact ⟨found, walked⟩

theorem WalkFacts.listed {view : ViewKey → StoreState} {keys : List ViewKey}
    (walk : WalkFacts view keys w) {entry : String × Binding} (h : entry ∈ w.bindings.entries) :
    (entry.2.view, entry.2.intent) ∈ intentsOf view keys ∧
      entry ∈ boundEntries (view entry.2.view) entry.2.view entry.2.intent := by
  rw [walk.bindings, List.mem_flatMap] at h
  obtain ⟨⟨v, i⟩, held, member⟩ := h
  obtain ⟨rfl, rfl, -⟩ := mem_boundEntries member
  exact ⟨held, member⟩

theorem WalkFacts.bound {view : ViewKey → StoreState} {keys : List ViewKey}
    (walk : WalkFacts view keys w) {v : ViewKey} {i : HedgeIntent}
    (held : (v, i) ∈ intentsOf view keys) {cid : String}
    (member : cid ∈ boundOrders i ∨ isRejectedAttempt i cid) :
    ∃ b, (cid, b) ∈ w.bindings.entries ∧ b.view = v ∧ b.intent = i := by
  obtain ⟨record, found, -, -⟩ := (walk.named held).2.source
  obtain ⟨b, listed⟩ : ∃ b, (cid, b) ∈ boundEntries (view v) v i := by
    simp only [boundEntries, found, List.mem_append]
    rcases member with own | ⟨attempt, archived, rfl⟩
    · rw [← map_fst_ownBindings v i record (boundOrders i)] at own
      obtain ⟨⟨_, b⟩, listed, rfl⟩ := List.mem_map.1 own
      exact ⟨b, .inl listed⟩
    · exact ⟨_, .inr (List.mem_map.2 ⟨attempt, by simpa using archived, rfl⟩)⟩
  refine ⟨b, ?_, (mem_boundEntries listed).1, (mem_boundEntries listed).2.1⟩
  rw [walk.bindings, List.mem_flatMap]
  exact ⟨(v, i), held, listed⟩

/-- An order is bound once, to one leg of one intent. -/
theorem WalkFacts.sole {entry other : String × Binding} (h : entry ∈ w.bindings.entries)
    (h' : other ∈ w.bindings.entries) (same : entry.1 = other.1) : entry = other :=
  List.inj_on_of_nodup_map w.bindings.nodup h h' same

theorem WalkFacts.own {view : ViewKey → StoreState} {keys : List ViewKey}
    (walk : WalkFacts view keys w) {v : ViewKey} {i : HedgeIntent}
    (held : (v, i) ∈ intentsOf view keys) :
    w.bindings.entries.filter (fun entry => entry.2.intent.intentId = i.intentId) =
      boundEntries (view v) v i := by
  rw [walk.bindings, List.filter_flatMap]
  rw [flatMap_of_key walk.identities held]
  · rw [List.filter_eq_self]
    intro entry member
    rw [(mem_boundEntries member).2.1, decide_eq_true_eq]
  · intro other _ apart
    rw [List.filter_eq_nil_iff]
    intro entry member
    rw [(mem_boundEntries member).2.1, decide_eq_true_eq]
    exact apart

end Evidence

/-- How much of an order's fills a view has seen. -/
def progress (s : StoreState) (orders : Dict String Order) (cid : String) : ℚ :=
  totalQty ((fillsOf orders cid).take (seenOf s cid).card)

/-- What the native history of one bound order and its view agree on. -/
structure OrderFacts (s : StoreState) (orders : Dict String Order) (i : HedgeIntent)
    (cid : String) : Prop where
  fills : ∀ fill ∈ fillsOf orders cid,
    fill.clientOrderId = cid ∧ '|' ∉ fill.tradeId.toList ∧ 0 < fill.lastQty
  distinct : ((fillsOf orders cid).map key).Nodup
  seen : seenOf s cid =
    (((fillsOf orders cid).map key).take (seenOf s cid).card).toFinset
  history : i.hedgeClientOrderId ≠ some cid →
    (seenOf s cid).card = (fillsOf orders cid).length
  late : (fillsOf orders cid).drop (seenOf s cid).card ≠ [] →
    i.status ≠ .completed ∧ i.hedgeClientOrderId = some cid

theorem byId_clientOrderId {orders : List Order} {cid : String} {order : Order}
    (h : (byId orders).get? cid = some order) : order.clientOrderId = cid := by
  obtain ⟨other, -, same⟩ := List.mem_map.1 (Dict.mem_of_get?_ofList h)
  cases same
  rfl

theorem key_inj {cid tradeId tradeId' : String}
    (h : cid ++ "|" ++ tradeId = cid ++ "|" ++ tradeId') : tradeId = tradeId' := by
  have texts := congrArg String.toList h
  simp only [String.toList_append, List.append_cancel_left_eq] at texts
  exact String.toList_inj.1 texts

theorem Counted.orderFacts {store : BusinessStore} {route : NativeRoute} {orders : List Order}
    {view : ViewKey → StoreState} {entry : String × Binding}
    (counts : Counted store route (byId orders) view entry)
    (live : ¬isRejectedAttempt entry.2.intent entry.1) :
    OrderFacts (view entry.2.view) (byId orders) entry.2.intent entry.1 := by
  obtain ⟨order, found, checked, -, facts⟩ := counts.order
  obtain ⟨trades, seen, history, late⟩ := facts live
  have fills' : fillsOf (byId orders) entry.1 = order.fills := by simp only [fillsOf, found]
  have sound := (checkedFills_eq_ok checked).2
  have named := byId_clientOrderId found
  refine ⟨?_, ?_, ?_, ?_, ?_⟩
  · rw [fills']
    intro fill member
    obtain ⟨owner, -, bar, positive⟩ := sound fill member
    exact ⟨owner.trans named, bar, positive⟩
  · rw [fills', List.Nodup, List.pairwise_map]
    rw [List.Nodup, List.pairwise_map] at trades
    refine trades.imp_of_mem fun {fill other} here there apart same => apart ?_
    obtain ⟨owner, account, -, -⟩ := sound fill here
    obtain ⟨owner', account', -, -⟩ := sound other there
    rw [key, key, owner, owner'] at same
    rw [key_inj same, Option.some.inj (account.trans account'.symm)]
  · rw [fills']
    exact seen
  · rw [fills']
    exact fun other => (history other).2
  · intro lacks
    apply late
    intro none'
    apply lacks
    exact List.map_eq_nil_iff.1 none'

theorem Counted.archived {store : BusinessStore} {route : NativeRoute} {orders : Dict String Order}
    {view : ViewKey → StoreState} {entry : String × Binding}
    (counts : Counted store route orders view entry)
    (archived : isRejectedAttempt entry.2.intent entry.1) : fillsOf orders entry.1 = [] := by
  obtain ⟨order, found, -, facts, -⟩ := counts.order
  simp only [fillsOf, found, (facts archived).2.2.1]

/-- What a validated set of native orders says of the views. -/
structure Evidence (view : ViewKey → StoreState) (keys : List ViewKey)
    (orders : Dict String Order) : Prop where
  named : ∀ v i, (v, i) ∈ intentsOf view keys →
    (view v).hedgeIntents.get? i.intentId = some i
  facts : ∀ v i, (v, i) ∈ intentsOf view keys → ∀ cid ∈ boundOrders i,
    OrderFacts (view v) orders i cid
  plain : ∀ v i, (v, i) ∈ intentsOf view keys → (boundOrders i).Nodup ∧
    (∀ cid ∈ boundOrders i, '|' ∉ cid.toList) ∧
    (∀ cid ∈ i.hedgeClientOrderId, cid ∈ boundOrders i ∧
      (i.hedgePlan ≠ [] → i.hedgeLegIndex < i.hedgePlan.length))
  single : ∀ v i, (v, i) ∈ intentsOf view keys → i.hedgePlan = [] → (boundOrders i).length ≤ 1
  sole : ∀ v i v' i', (v, i) ∈ intentsOf view keys → (v', i') ∈ intentsOf view keys → ∀ cid,
    cid ∈ boundOrders i ∨ isRejectedAttempt i cid →
    cid ∈ boundOrders i' ∨ isRejectedAttempt i' cid → v = v' ∧ i = i'
  filled : ∀ v i, (v, i) ∈ intentsOf view keys →
    i.hedgeFilledOunces = ((boundOrders i).map (progress (view v) orders)).sum
  legFilled : ∀ v i, (v, i) ∈ intentsOf view keys → i.hedgePlan ≠ [] →
    i.hedgeLegFilledOunces = (i.hedgeClientOrderId.map (progress (view v) orders)).getD 0
  legs : ∀ v i, (v, i) ∈ intentsOf view keys → i.hedgePlan ≠ [] → i.hedgeFilledOunces =
    i.hedgeLegFilledOunces + planQuantity (i.hedgePlan.take i.hedgeLegIndex)
  completed : ∀ v i, (v, i) ∈ intentsOf view keys → i.status = .completed →
    i.hedgeFilledOunces = i.hedgeQuantityOunces
  within : ∀ v i, (v, i) ∈ intentsOf view keys → i.hedgeFilledOunces ≤ i.hedgeQuantityOunces
  bounded : ∀ v i, (v, i) ∈ intentsOf view keys → ∀ cid ∈ i.hedgeClientOrderId,
    totalQty (fillsOf orders cid) ≤ boundQuantity i i.hedgeLegIndex
  seen : ∀ v ∈ keys, ∀ k ∈ (view v).seenHedgeFills, ∃ i, (v, i) ∈ intentsOf view keys ∧
    ∃ cid ∈ boundOrders i, ∃ fill ∈ fillsOf orders cid, key fill = k

theorem sum_boundEntries {store : BusinessStore} {route : NativeRoute} {orders : Dict String Order}
    {view : ViewKey → StoreState} {v : ViewKey} {i : HedgeIntent}
    (walked : Walked (view v) (i.intentId, i))
    (counts : ∀ entry ∈ boundEntries (view v) v i, Counted store route orders view entry) :
    ((boundEntries (view v) v i).map (counted view orders)).sum =
      ((boundOrders i).map (progress (view v) orders)).sum := by
  obtain ⟨record, found, -, -⟩ := walked.source
  simp only [boundEntries, found] at counts ⊢
  rw [List.map_append, List.sum_append]
  have archived : ((attemptBindings v i record).map (counted view orders)).sum = 0 := by
    apply List.sum_eq_zero
    intro x member
    obtain ⟨entry, listed, rfl⟩ := List.mem_map.1 member
    obtain ⟨attempt, held, rfl⟩ := List.mem_map.1 listed
    have empty := (counts _ (List.mem_append_right _ listed)).archived
      ⟨attempt, by simpa using held, rfl⟩
    simp [counted, empty]
  rw [archived, add_zero]
  conv_rhs => rw [← map_fst_ownBindings v i record (boundOrders i), List.map_map]
  congr 1
  apply List.map_congr_left
  intro entry member
  obtain ⟨-, rfl, -⟩ := mem_ownBindings member
  rfl

/-- What the two walks over views and native orders establish. -/
structure Validated (store : BusinessStore) (orders : List Order) (route : NativeRoute)
    (view : ViewKey → StoreState) (w : Walk) (c : Count) : Prop where
  walk : WalkFacts view store.viewKeys w
  counts : ∀ entry ∈ w.bindings.entries, Counted store route (byId orders) view entry
  totals : ∀ id, c.totals id = ((w.bindings.entries.filter fun entry =>
    entry.2.intent.intentId = id).map (counted view (byId orders))).sum
  keys : ∀ v k, k ∈ c.keysByView v ↔ ∃ entry ∈ w.bindings.entries, entry.2.view = v ∧
    ∃ fill ∈ fillsOf (byId orders) entry.1, key fill = k
  missing : c.missing = w.bindings.entries.flatMap (lacking view (byId orders))
  current : ∀ v i, (v, i) ∈ intentsOf view store.viewKeys →
    c.currentTotals i.intentId =
      (i.hedgeClientOrderId.map (progress (view v) (byId orders))).getD 0

theorem validated {store : BusinessStore} {orders : List Order} {route : NativeRoute}
    {view : ViewKey → StoreState} {w : Walk} {c : Count}
    (walked : store.viewKeys.foldlM (walkView view) {} = .ok w)
    (counted' : w.bindings.entries.foldlM (countOrder store route (byId orders) view) {} = .ok c) :
    Validated store orders route view w c := by
  have walk := walkFacts walked
  obtain ⟨counts, totals, keys, missing⟩ := countOrders_eq_ok counted'
  refine ⟨walk, counts, fun id => by simpa using totals id, fun v k => by simpa using keys v k,
    by simpa using missing, fun v i held => ?_⟩
  have mine : ∀ entry ∈ w.bindings.entries, entry.2.intent.intentId = i.intentId →
      entry.2.view = v ∧ entry.2.intent = i := by
    intro entry member same
    have own : entry ∈ boundEntries (view v) v i := by
      rw [← walk.own held, List.mem_filter]
      exact ⟨member, by simpa using same⟩
    exact ⟨(mem_boundEntries own).1, (mem_boundEntries own).2.1⟩
  cases current : i.hedgeClientOrderId with
  | none =>
    refine countOrders_current counted' (fun entry member same here _ => ?_) (.inl rfl)
    obtain ⟨-, rfl⟩ := mine entry member same
    rw [current] at here
    cases here
  | some cid =>
    obtain ⟨record, -, -, orders'⟩ := (walk.named held).2.source
    have own := (orderIds_eq_ok orders').2.2.2 cid current
    obtain ⟨b, listed, view', intent⟩ := walk.bound held (.inl own)
    refine countOrders_current counted' (fun entry member same here live => ?_)
      (.inr ⟨(cid, b), listed, by rw [intent], by rw [intent]; exact current, ?_⟩)
    · obtain ⟨rfl, rfl⟩ := mine entry member same
      obtain rfl := Option.some.inj (here.symm.trans current)
      rfl
    · rw [intent]
      exact fun archived => not_mem_boundOrders archived own

theorem Validated.total {store : BusinessStore} {orders : List Order} {route : NativeRoute}
    {view : ViewKey → StoreState} {w : Walk} {c : Count}
    (h : Validated store orders route view w c) {v : ViewKey} {i : HedgeIntent}
    (held : (v, i) ∈ intentsOf view store.viewKeys) :
    c.totals i.intentId = ((boundOrders i).map (progress (view v) (byId orders))).sum := by
  rw [h.totals, h.walk.own held]
  refine @sum_boundEntries store route _ _ _ _ (h.walk.named held).2
    fun entry member => h.counts entry ?_
  rw [h.walk.bindings, List.mem_flatMap]
  exact ⟨(v, i), held, member⟩

/-- The order bound to a leg never shows more than the leg. -/
theorem Validated.bounded {store : BusinessStore} {orders : List Order} {route : NativeRoute}
    {view : ViewKey → StoreState} {w : Walk} {c : Count}
    (h : Validated store orders route view w c) {v : ViewKey} {i : HedgeIntent}
    (held : (v, i) ∈ intentsOf view store.viewKeys) {cid : String}
    (current : i.hedgeClientOrderId = some cid) :
    totalQty (fillsOf (byId orders) cid) ≤ boundQuantity i i.hedgeLegIndex := by
  obtain ⟨record, found, -, ids⟩ := (h.walk.named held).2.source
  obtain ⟨-, nodup, -, currents⟩ := orderIds_eq_ok ids
  have own := currents cid current
  obtain ⟨place, inside, at'⟩ := List.getElem_of_mem own
  have listed : (cid, (⟨v, i, record, place⟩ : Binding)) ∈ w.bindings.entries := by
    rw [h.walk.bindings, List.mem_flatMap]
    refine ⟨(v, i), held, ?_⟩
    simp only [boundEntries, found, List.mem_append]
    refine .inl (List.mem_map.2 ⟨(cid, place), ?_, rfl⟩)
    rw [List.mk_mem_zipIdx_iff_getElem?, List.getElem?_eq_getElem inside, at']
  obtain ⟨order, shown, checked, -⟩ := (h.counts _ listed).order
  have fits : totalQty order.fills ≤ boundQuantity i place := checkedFills_le checked
  have fills' : fillsOf (byId orders) cid = order.fills := by simp only [fillsOf, shown]
  rw [fills']
  refine fits.trans (le_of_eq ?_)
  by_cases planned : i.hedgePlan = []
  · simp [boundQuantity, planned]
  · congr 1
    have leg := orderIds_leg ids planned current
    have same : (boundOrders i)[place]? = (boundOrders i)[i.hedgeLegIndex]? := by
      rw [List.getElem?_eq_getElem inside, at', boundOrders, if_pos planned, leg]
    exact (List.getElem?_inj inside nodup).1 same

theorem Validated.evidence {store : BusinessStore} {orders : List Order} {route : NativeRoute}
    {view : ViewKey → StoreState} {w : Walk} {c : Count}
    (h : Validated store orders route view w c)
    (checked : ∀ v ∈ store.viewKeys, checkSeen view c v = .ok ()) :
    Evidence view store.viewKeys (byId orders) := by
  have agrees := fun v i held => (checkSeen_eq_ok.1 (checked v (mem_intentsOf.1 held).1)).2 i
    (mem_intentsOf.1 held).2
  refine ⟨fun v i held => (h.walk.named held).1, ?_, ?_, ?_, ?_, ?_, ?_, ?_, ?_, ?_,
    fun v i held cid current => h.bounded held current, ?_⟩
  · intro v i held cid member
    obtain ⟨b, listed, rfl, rfl⟩ := h.walk.bound held (.inl member)
    exact (h.counts _ listed).orderFacts fun archived => not_mem_boundOrders archived member
  · intro v i held
    obtain ⟨record, -, -, ids⟩ := (h.walk.named held).2.source
    obtain ⟨-, nodup, plain, current⟩ := orderIds_eq_ok ids
    refine ⟨nodup, fun cid member => (plain cid member).2, fun cid here => ⟨current cid here, ?_⟩⟩
    intro planned
    refine orderIds_current ids planned ?_
    rw [Option.mem_def] at here
    rw [here]
    nofun
  · intro v i held unplanned
    obtain ⟨record, -, -, ids⟩ := (h.walk.named held).2.source
    exact orderIds_single ids unplanned
  · intro v i v' i' held held' cid member member'
    obtain ⟨b, listed, rfl, rfl⟩ := h.walk.bound held member
    obtain ⟨b', listed', rfl, rfl⟩ := h.walk.bound held' member'
    cases WalkFacts.sole listed listed' rfl
    exact ⟨rfl, rfl⟩
  · intro v i held
    rw [← h.total held]
    exact (agrees v i held).1.symm
  · intro v i held planned
    rw [← h.current v i held]
    exact ((agrees v i held).2.2.1 planned).1.symm
  · intro v i held planned
    rw [← ((agrees v i held).2.2.1 planned).2, (agrees v i held).1]
  · intro v i held done
    rw [← (agrees v i held).2.2.2 done, (agrees v i held).1]
  · intro v i held
    rw [← (agrees v i held).1]
    exact (agrees v i held).2.1
  · intro v known k member
    have native := (checkSeen_eq_ok.1 (checked v known)).1 member
    obtain ⟨entry, listed, rfl, fill, shown, same⟩ := (h.keys v k).1 native
    obtain ⟨held, mine⟩ := h.walk.listed listed
    refine ⟨_, held, entry.1, ?_, fill, shown, same⟩
    rcases (mem_boundEntries mine).2.2 with own | archived
    · exact own
    · rw [(h.counts _ listed).archived archived] at shown
      cases shown

/-- A fill that a projection adds is the next of a current order. -/
structure Lacks (view : ViewKey → StoreState) (keys : List ViewKey) (orders : Dict String Order)
    (m : ViewKey × HedgeFill) (i : HedgeIntent) (cid : String) (fill : OrderFilled) : Prop where
  held : (m.1, i) ∈ intentsOf view keys
  current : i.hedgeClientOrderId = some cid
  late : fill ∈ (fillsOf orders cid).drop (seenOf (view m.1) cid).card
  same : m.2 = business fill

theorem Validated.lacks {store : BusinessStore} {orders : List Order} {route : NativeRoute}
    {view : ViewKey → StoreState} {w : Walk} {c : Count}
    (h : Validated store orders route view w c) {entry : String × Binding}
    (listed : entry ∈ w.bindings.entries) {m : ViewKey × HedgeFill}
    (member : m ∈ lacking view (byId orders) entry) :
    ∃ fill, Lacks view store.viewKeys (byId orders) m entry.2.intent entry.1 fill := by
  obtain ⟨held, mine⟩ := h.walk.listed listed
  obtain ⟨fill, late, rfl⟩ := List.mem_map.1 member
  have live : ¬isRejectedAttempt entry.2.intent entry.1 := by
    intro archived
    rw [(h.counts _ listed).archived archived] at late
    cases List.mem_of_mem_drop late
  have facts := (h.counts _ listed).orderFacts live
  have current := (facts.late fun none' => by rw [none'] at late; cases late).2
  exact ⟨fill, held, current, late, rfl⟩

theorem head_key {cid : String} (plain : '|' ∉ cid.toList) (tradeId : String) :
    (splitText '|' (cid ++ "|" ++ tradeId)).head? = some cid := by
  rw [show "|" = String.singleton '|' from rfl, splitText_append plain]
  rfl

theorem OrderFacts.head {s : StoreState} {orders : Dict String Order} {i : HedgeIntent}
    {cid : String} (facts : OrderFacts s orders i cid) (plain : '|' ∉ cid.toList)
    {fill : OrderFilled} (member : fill ∈ fillsOf orders cid) :
    (splitText '|' (key fill)).head? = some cid := by
  rw [key, (facts.fills fill member).1]
  exact head_key plain fill.tradeId

/-- A fill that is late has not been seen. -/
theorem OrderFacts.unseen {s : StoreState} {orders : Dict String Order} {i : HedgeIntent}
    {cid : String} (facts : OrderFacts s orders i cid) (plain : '|' ∉ cid.toList)
    {fill : OrderFilled} (late : fill ∈ (fillsOf orders cid).drop (seenOf s cid).card) :
    key fill ∉ s.seenHedgeFills := by
  intro known
  have among : key fill ∈ seenOf s cid := by
    rw [seenOf, Finset.mem_filter]
    exact ⟨known, facts.head plain (List.mem_of_mem_drop late)⟩
  rw [facts.seen, List.mem_toFinset] at among
  have again : key fill ∈ ((fillsOf orders cid).map key).drop (seenOf s cid).card := by
    rw [← List.map_drop]
    exact List.mem_map_of_mem late
  exact List.disjoint_take_drop facts.distinct le_rfl among again

theorem business_fillKey (fill : OrderFilled) : (business fill).fillKey = key fill := rfl

section Suffix

variable {store : BusinessStore} {orders : List Order} {route : NativeRoute} {w : Walk} {c : Count}

theorem seen_held (store : BusinessStore) (reason : String) (v : ViewKey) :
    (heldViews store reason v).seenHedgeFills = (store.view v).seenHedgeFills := by
  unfold heldViews
  split <;> rfl

theorem intents_held (store : BusinessStore) (reason : String) (v : ViewKey) :
    (heldViews store reason v).hedgeIntents = (store.view v).hedgeIntents := by
  unfold heldViews
  split <;> rfl

/-- Every missing fill is due in its view. -/
theorem Validated.due (h : Validated store orders route store.view w c)
    (evidence : Evidence store.view store.viewKeys (byId orders)) (reason : String)
    {m : ViewKey × HedgeFill} (member : m ∈ c.missing) :
    (heldViews store reason m.1).haltReason ≠ none ∧
      m.2.fillKey ∉ (heldViews store reason m.1).seenHedgeFills ∧
      ∃ i, Due (heldViews store reason m.1) m.2 i := by
  rw [h.missing, List.mem_flatMap] at member
  obtain ⟨entry, listed, member⟩ := member
  obtain ⟨fill, lacks⟩ := h.lacks listed member
  have held := lacks.held
  obtain ⟨nodup, plain, current⟩ := evidence.plain _ _ held
  obtain ⟨own, inLeg⟩ := current entry.1 lacks.current
  have facts := evidence.facts _ _ held entry.1 own
  have shown := List.mem_of_mem_drop lacks.late
  have named : m.2.clientOrderId = entry.1 := by
    rw [lacks.same]
    exact (facts.fills fill shown).1
  refine ⟨?_, ?_, entry.2.intent, ?_, ?_, ?_, ?_, inLeg⟩
  · rw [heldViews, if_pos (mem_intentsOf.1 held).1]
    nofun
  · rw [seen_held, lacks.same, business_fillKey]
    exact facts.unseen (plain _ own) lacks.late
  · rw [intents_held]
    exact evidence.named _ _ held
  · rw [named]
    exact lacks.current
  · rw [named]
    exact fun archived => not_mem_boundOrders archived own
  · intro k j found hit
    rw [intents_held] at found
    have held' : (m.1, j) ∈ intentsOf store.view store.viewKeys :=
      mem_intentsOf.2 ⟨(mem_intentsOf.1 held).1, (Dict.mem_values_iff _ _).2 ⟨k, found⟩⟩
    have key' := (h.walk.walked m.1 (mem_intentsOf.1 held).1 (k, j)
      ((Dict.mem_entries_iff _ _ _).2 found)).named
    have bound : entry.1 ∈ boundOrders j ∨ isRejectedAttempt j entry.1 := by
      rw [named] at hit
      exact hit.imp (fun here => ((evidence.plain _ _ held').2.2 entry.1 here).1) id
    obtain ⟨-, rfl⟩ := evidence.sole _ _ _ _ held' held entry.1 bound (.inl own)
    exact key'

theorem Validated.distinct (h : Validated store orders route store.view w c)
    (evidence : Evidence store.view store.viewKeys (byId orders)) :
    (c.missing.map fun m => m.2.fillKey).Nodup := by
  have shape : ∀ entry ∈ w.bindings.entries, ∀ k ∈
      (lacking store.view (byId orders) entry).map (fun m => m.2.fillKey),
      (splitText '|' k).head? = some entry.1 := by
    intro entry listed k member
    obtain ⟨m, lacked, rfl⟩ := List.mem_map.1 member
    obtain ⟨fill, lacks⟩ := h.lacks listed lacked
    obtain ⟨-, plain, current⟩ := evidence.plain _ _ lacks.held
    have own := (current entry.1 lacks.current).1
    have facts := evidence.facts _ _ lacks.held entry.1 own
    rw [lacks.same, business_fillKey]
    exact facts.head (plain _ own) (List.mem_of_mem_drop lacks.late)
  rw [h.missing, List.map_flatMap, List.nodup_flatMap]
  constructor
  · intro entry listed
    have own : (lacking store.view (byId orders) entry).map (fun m => m.2.fillKey) =
        ((fillsOf (byId orders) entry.1).map key).drop
          (seenOf (store.view entry.2.view) entry.1).card := by
      rw [lacking, List.map_map, ← List.map_drop]
      rfl
    rw [own]
    by_cases archived : isRejectedAttempt entry.2.intent entry.1
    · simp [(h.counts _ listed).archived archived]
    · exact ((h.counts _ listed).orderFacts archived).distinct.sublist (List.drop_sublist _ _)
  · have nodup := w.bindings.nodup
    rw [List.Nodup, List.pairwise_map] at nodup
    refine nodup.imp_of_mem fun {entry other} here there apart => ?_
    intro k member member'
    have first := shape entry here k member
    have second := shape other there k member'
    exact apart (Option.some.inj (first.symm.trans second))

/-- What a projection leaves of a view: its intents advanced by their own missing fills. -/
theorem Validated.owed_eq (h : Validated store orders route store.view w c)
    (evidence : Evidence store.view store.viewKeys (byId orders)) {v : ViewKey} {i : HedgeIntent}
    (held : (v, i) ∈ intentsOf store.view store.viewKeys) {cid : String}
    (current : i.hedgeClientOrderId = some cid) :
    owed (ofView c.missing v) i =
      ((fillsOf (byId orders) cid).drop (seenOf (store.view v) cid).card).map business := by
  obtain ⟨own, -⟩ := (evidence.plain v i held).2.2 cid current
  obtain ⟨b, listed, rfl, rfl⟩ := h.walk.bound held (.inl own)
  have facts := evidence.facts _ _ held cid own
  have alone : (c.missing.filter fun m => m.1 = b.view ∧ m.2.clientOrderId = cid) =
      lacking store.view (byId orders) (cid, b) := by
    rw [h.missing, List.filter_flatMap, flatMap_of_key w.bindings.nodup listed]
    · rw [List.filter_eq_self]
      intro m member
      obtain ⟨fill, late, rfl⟩ := List.mem_map.1 member
      have named := (facts.fills fill (List.mem_of_mem_drop late)).1
      simpa [business] using named
    · intro other there apart
      rw [List.filter_eq_nil_iff]
      intro m member
      obtain ⟨fill, lacks⟩ := h.lacks there member
      obtain ⟨own', -⟩ := (evidence.plain _ _ lacks.held).2.2 other.1 lacks.current
      have named := ((evidence.facts _ _ lacks.held other.1 own').fills fill
        (List.mem_of_mem_drop lacks.late)).1
      have named' : m.2.clientOrderId = other.1 := by
        rw [lacks.same]
        exact named
      simp only [named', decide_eq_true_eq, not_and]
      exact fun _ => apart
  have same : ∀ m : ViewKey × HedgeFill,
      (decide (b.intent.hedgeClientOrderId = some m.2.clientOrderId)) =
        decide (m.2.clientOrderId = cid) := by
    intro m
    rw [current]
    simp [eq_comm]
  rw [owed, ofView, List.filter_map, List.filter_filter]
  have fused : (c.missing.filter fun m => ((fun fill : HedgeFill =>
      decide (b.intent.hedgeClientOrderId = some fill.clientOrderId)) ∘ Prod.snd) m &&
      decide (m.1 = b.view)) = c.missing.filter fun m => m.1 = b.view ∧
        m.2.clientOrderId = cid := by
    apply List.filter_congr
    intro m _
    rw [Function.comp_apply, same, Bool.and_comm, ← Bool.decide_and]
  rw [fused, alone, lacking, List.map_map]
  rfl

theorem owed_unbound {fills : List HedgeFill} {i : HedgeIntent}
    (unbound : i.hedgeClientOrderId = none) : owed fills i = [] := by
  rw [owed, List.filter_eq_nil_iff]
  intro fill _
  simp [unbound]

theorem quantity_business (fills : List OrderFilled) :
    quantity (fills.map business) = totalQty fills := by
  simp only [quantity, totalQty, List.map_map]
  rfl

/-- After the missing fills a view has seen every fill of a bound order. -/
theorem Validated.seen_all (h : Validated store orders route store.view w c)
    (evidence : Evidence store.view store.viewKeys (byId orders)) {v : ViewKey} {i : HedgeIntent}
    (held : (v, i) ∈ intentsOf store.view store.viewKeys) {cid : String} (own : cid ∈ boundOrders i)
    {s u : StoreState} (start : s.seenHedgeFills = (store.view v).seenHedgeFills)
    (grown : Grown (ofView c.missing v) s u) :
    seenOf u cid = ((fillsOf (byId orders) cid).map key).toFinset := by
  have facts := evidence.facts v i held cid own
  have plain := (evidence.plain v i held).2.1 cid own
  obtain ⟨b, listed, rfl, rfl⟩ := h.walk.bound held (.inl own)
  ext k
  rw [seenOf, Finset.mem_filter, grown.seen, Finset.mem_union, start, List.mem_toFinset,
    List.mem_toFinset]
  constructor
  · rintro ⟨old | new, head⟩
    · have among : k ∈ seenOf (store.view b.view) cid := by
        rw [seenOf, Finset.mem_filter]
        exact ⟨old, head⟩
      rw [facts.seen, List.mem_toFinset] at among
      exact List.mem_of_mem_take among
    · obtain ⟨fill, member, rfl⟩ := List.mem_map.1 new
      obtain ⟨m, missing, rfl⟩ := List.mem_map.1 member
      have missing' := List.mem_of_mem_filter missing
      rw [h.missing, List.mem_flatMap] at missing'
      obtain ⟨entry, there, lacked⟩ := missing'
      obtain ⟨fill, lacks⟩ := h.lacks there lacked
      obtain ⟨-, plain', current⟩ := evidence.plain _ _ lacks.held
      have own' := (current entry.1 lacks.current).1
      have shown := List.mem_of_mem_drop lacks.late
      have other := (evidence.facts _ _ lacks.held entry.1 own').head (plain' _ own') shown
      rw [lacks.same, business_fillKey] at head ⊢
      have same : entry.1 = cid := Option.some.inj (other.symm.trans head)
      rw [same] at shown
      exact List.mem_map_of_mem shown
  · intro member
    obtain ⟨fill, shown, rfl⟩ := List.mem_map.1 member
    refine ⟨?_, facts.head plain shown⟩
    have split := List.take_append_drop (seenOf (store.view b.view) cid).card
      (fillsOf (byId orders) cid)
    rw [← split, List.mem_append] at shown
    rcases shown with early | late
    · left
      have among : key fill ∈ seenOf (store.view b.view) cid := by
        rw [facts.seen, List.mem_toFinset, ← List.map_take]
        exact List.mem_map_of_mem early
      exact (Finset.mem_filter.1 among).1
    · right
      have lacked : (b.view, business fill) ∈ c.missing := by
        rw [h.missing, List.mem_flatMap]
        exact ⟨(cid, b), listed, List.mem_map_of_mem (f := fun fill => (b.view, business fill))
          late⟩
      have mine : business fill ∈ ofView c.missing b.view :=
        List.mem_map.2 ⟨_, List.mem_filter.2 ⟨lacked, by simp⟩, rfl⟩
      exact List.mem_map_of_mem (f := HedgeFill.fillKey) mine

theorem OrderFacts.card_all {s s' : StoreState} {orders : Dict String Order} {i : HedgeIntent}
    {cid : String} (facts : OrderFacts s orders i cid)
    (all : seenOf s' cid = ((fillsOf orders cid).map key).toFinset) :
    (seenOf s' cid).card = (fillsOf orders cid).length := by
  rw [all, List.toFinset_card_of_nodup facts.distinct, List.length_map]

theorem OrderFacts.progress_all {s s' : StoreState} {orders : Dict String Order} {i : HedgeIntent}
    {cid : String} (facts : OrderFacts s orders i cid)
    (all : seenOf s' cid = ((fillsOf orders cid).map key).toFinset) :
    progress s' orders cid = totalQty (fillsOf orders cid) := by
  rw [progress, facts.card_all all, List.take_length]

/-- The fills an intent's orders show, beside those it had counted. -/
theorem Validated.filled_all (h : Validated store orders route store.view w c)
    (evidence : Evidence store.view store.viewKeys (byId orders)) {v : ViewKey} {i j : HedgeIntent}
    (held : (v, i) ∈ intentsOf store.view store.viewKeys)
    (advanced : Advanced (ofView c.missing v) i j) :
    j.hedgeFilledOunces =
      ((boundOrders i).map fun cid => totalQty (fillsOf (byId orders) cid)).sum := by
  have facts := evidence.facts v i held
  have nodup := (evidence.plain v i held).1
  rw [advanced.filled, evidence.filled v i held]
  have split : ∀ cid ∈ boundOrders i, totalQty (fillsOf (byId orders) cid) =
      progress (store.view v) (byId orders) cid +
        if i.hedgeClientOrderId = some cid then quantity (owed (ofView c.missing v) i) else 0 := by
    intro cid own
    rw [← totalQty_take_drop _ (seenOf (store.view v) cid).card]
    by_cases current : i.hedgeClientOrderId = some cid
    · rw [if_pos current, h.owed_eq evidence held current, quantity_business]
      rfl
    · rw [if_neg current, (facts cid own).history current, List.drop_length, totalQty_nil,
        progress, (facts cid own).history current]
  rw [List.map_congr_left split, List.sum_map_add]
  congr 1
  cases current : i.hedgeClientOrderId with
  | none =>
    rw [owed_unbound current]
    simp [quantity]
  | some cid =>
    have own := ((evidence.plain v i held).2.2 cid current).1
    have keys : ((boundOrders i).map id).Nodup := by rwa [List.map_id]
    rw [sum_of_key keys own]
    · rw [if_pos rfl]
    · intro other _ apart
      exact if_neg fun same => apart (Option.some.inj same).symm

theorem Validated.legFilled_all (h : Validated store orders route store.view w c)
    (evidence : Evidence store.view store.viewKeys (byId orders)) {v : ViewKey} {i j : HedgeIntent}
    (held : (v, i) ∈ intentsOf store.view store.viewKeys)
    (advanced : Advanced (ofView c.missing v) i j) (planned : i.hedgePlan ≠ []) {cid : String}
    (current : i.hedgeClientOrderId = some cid) :
    j.hedgeLegFilledOunces = totalQty (fillsOf (byId orders) cid) := by
  rw [advanced.legFilled, if_pos planned, evidence.legFilled v i held planned, current,
    h.owed_eq evidence held current, quantity_business]
  exact totalQty_take_drop _ _

end Suffix

end ArbNautilus.Store.HedgeProjection
