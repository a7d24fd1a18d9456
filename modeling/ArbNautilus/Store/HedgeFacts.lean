import ArbNautilus.Store.HedgeProjection

namespace ArbNautilus.Store.HedgeProjection

open Base Native

/-- The orders an intent is bound to, without its archived rejection. -/
def boundOrders (intent : HedgeIntent) : List String :=
  if intent.hedgePlan ≠ [] then intent.hedgeLegOrderIds else unplannedOrders intent

theorem orderIds_eq_ok {intent : HedgeIntent} {record : SourceOrderRecord} {ids : List String}
    (h : orderIds intent record = .ok ids) :
    ids = boundOrders intent ∧ ids.Nodup ∧ (∀ cid ∈ ids, cid ≠ "" ∧ '|' ∉ cid.toList) ∧
      ∀ cid ∈ intent.hedgeClientOrderId, cid ∈ ids := by
  simp only [orderIds, bind_eq_ok, raiseIf_eq_ok, pure_eq_ok, exists_const] at h
  obtain ⟨-, found, chosen, identities, rfl⟩ := h
  unfold historyIds at chosen
  rw [not_or, not_not] at identities
  obtain ⟨nodup, identities⟩ := identities
  have named : ∀ cid ∈ found, cid ≠ "" ∧ '|' ∉ cid.toList := by
    intro cid member
    constructor
    · exact fun empty => identities ⟨cid, member, .inl empty⟩
    · exact fun bar => identities ⟨cid, member, .inr bar⟩
  refine ⟨?_, nodup, named, ?_⟩
  · unfold boundOrders
    split at chosen
    · rename_i planned
      simp only [plannedIds, bind_unit_eq_ok, raiseIf_eq_ok, pure_eq_ok] at chosen
      rw [if_pos planned, chosen.2.2]
    · rename_i unplanned
      simp only [unplannedIds, bind_unit_eq_ok, raiseIf_eq_ok, pure_eq_ok] at chosen
      rw [if_neg unplanned, chosen.2.2]
  · intro cid current
    split at chosen
    · simp only [plannedIds, bind_unit_eq_ok, raiseIf_eq_ok, pure_eq_ok] at chosen
      obtain ⟨history, -, rfl⟩ := chosen
      rw [Option.mem_def] at current
      rw [not_or, not_and, not_or, not_not, not_not] at history
      have last := (history.2 (by simp [current])).2
      exact List.mem_of_getElem? (last.symm.trans current)
    · simp only [unplannedIds, bind_unit_eq_ok, raiseIf_eq_ok, pure_eq_ok] at chosen
      obtain ⟨history, -, rfl⟩ := chosen
      rw [Option.mem_def] at current
      rw [not_or, not_and, not_not] at history
      by_cases none' : unplannedOrders intent = []
      · unfold unplannedOrders at none' ⊢
        split at none'
        · rw [current] at none'
          cases none'
        · rename_i some'
          exact absurd none' some'
      · have only := history.2 none'
        rw [current] at only
        exact List.mem_of_mem_head? only.symm

/-- A plan's current order is the order of a leg that is not yet done. -/
theorem orderIds_current {intent : HedgeIntent} {record : SourceOrderRecord} {ids : List String}
    (h : orderIds intent record = .ok ids) (planned : intent.hedgePlan ≠ [])
    (bound : intent.hedgeClientOrderId ≠ none) :
    intent.hedgeLegIndex < intent.hedgePlan.length := by
  simp only [orderIds, historyIds, bind_eq_ok, raiseIf_eq_ok, pure_eq_ok, exists_const,
    if_pos planned] at h
  obtain ⟨-, found, chosen, -⟩ := h
  simp only [plannedIds, bind_unit_eq_ok, raiseIf_eq_ok, pure_eq_ok] at chosen
  rw [not_or, not_and, not_or] at chosen
  have inside := (chosen.1.2 bound).1
  have bounded := intent.sound.indexBound
  omega

/-- It is the order of the leg the plan has reached. -/
theorem orderIds_leg {intent : HedgeIntent} {record : SourceOrderRecord} {ids : List String}
    (h : orderIds intent record = .ok ids) (planned : intent.hedgePlan ≠ []) {cid : String}
    (current : intent.hedgeClientOrderId = some cid) :
    intent.hedgeLegOrderIds[intent.hedgeLegIndex]? = some cid := by
  simp only [orderIds, historyIds, bind_eq_ok, raiseIf_eq_ok, pure_eq_ok, exists_const,
    if_pos planned] at h
  obtain ⟨-, found, chosen, -⟩ := h
  simp only [plannedIds, bind_unit_eq_ok, raiseIf_eq_ok, pure_eq_ok] at chosen
  rw [not_or, not_and, not_or, not_not, not_not] at chosen
  rw [← current]
  exact ((chosen.1.2 (by simp [current])).2).symm

/-- An unplanned intent has had one order at most. -/
theorem orderIds_single {intent : HedgeIntent} {record : SourceOrderRecord} {ids : List String}
    (h : orderIds intent record = .ok ids) (unplanned : intent.hedgePlan = []) :
    (boundOrders intent).length ≤ 1 := by
  simp only [orderIds, historyIds, bind_eq_ok, raiseIf_eq_ok, pure_eq_ok, exists_const,
    unplanned, ne_eq, not_true_eq_false, if_false] at h
  obtain ⟨-, found, chosen, -⟩ := h
  simp only [unplannedIds, bind_unit_eq_ok, raiseIf_eq_ok, pure_eq_ok] at chosen
  rw [not_or, not_lt] at chosen
  rw [boundOrders, if_neg (not_not.2 unplanned)]
  exact chosen.1.1

theorem bindOrders_eq_ok {message : String} {entries : List (String × Binding)}
    {d d' : Dict String Binding} :
    entries.foldlM (bindOrder message) d = .ok d' ↔
      ((d.entries ++ entries).map Prod.fst).Nodup ∧ d'.entries = d.entries ++ entries := by
  induction entries generalizing d with
  | nil =>
    have same : d = d' ↔ d'.entries = d.entries := by
      constructor
      · rintro rfl
        rfl
      · intro same
        cases d
        cases d'
        simp_all
    simp [same, d.nodup]
  | cons entry entries ih =>
    have keys : ∀ fresh : d.get? entry.1 = none,
        (d.set entry.1 entry.2).entries ++ entries = d.entries ++ entry :: entries := by
      intro fresh
      rw [Dict.entries_set_fresh fresh, List.append_assoc]
      rfl
    simp only [List.foldlM_cons, bind_eq_ok, bindOrder, raiseIf_eq_ok, pure_eq_ok, exists_const,
      not_not]
    constructor
    · rintro ⟨u, ⟨fresh, rfl⟩, loop⟩
      rw [ih, keys fresh] at loop
      exact loop
    · rintro ⟨nodup, entries'⟩
      have fresh : d.get? entry.1 = none := by
        rw [Dict.get?_eq_none_iff]
        rw [List.map_append, List.nodup_append] at nodup
        exact fun known => nodup.2.2 _ known entry.1 (by simp) rfl
      exact ⟨_, ⟨fresh, rfl⟩, by rw [ih, keys fresh]; exact ⟨nodup, entries'⟩⟩

/-- What the walk binds for one intent. -/
def boundEntries (s : StoreState) (v : ViewKey) (intent : HedgeIntent) :
    List (String × Binding) :=
  match s.sourceOrders.get? intent.sourceClientOrderId with
  | none => []
  | some record =>
    ownBindings v intent record (boundOrders intent) ++ attemptBindings v intent record

/-- What the walk leaves of one intent of a view. -/
structure Walked (s : StoreState) (entry : String × HedgeIntent) : Prop where
  named : entry.1 = entry.2.intentId
  nonempty : entry.1 ≠ ""
  source : ∃ record, s.sourceOrders.get? entry.2.sourceClientOrderId = some record ∧
    entry.2.sourceSide = record.side ∧ orderIds entry.2 record = .ok (boundOrders entry.2)

theorem walkIntent_eq_ok {s : StoreState} {v : ViewKey} {w w' : Walk}
    {entry : String × HedgeIntent} (h : walkIntent s v w entry = .ok w') :
    Walked s entry ∧ entry.1 ∉ w.intents ∧ w'.intents = insert entry.1 w.intents ∧
      w'.sources = w.sources ∧
      w'.bindings.entries = w.bindings.entries ++ boundEntries s v entry.2 := by
  obtain ⟨identity, intent⟩ := entry
  unfold walkIntent at h
  dsimp only at h
  split at h
  · cases h
  · rename_i record found
    simp only [bind_eq_ok, raiseIf_eq_ok, pure_eq_ok, exists_const, not_or, not_not] at h
    obtain ⟨⟨nonempty, named, fresh, -, side, -, -⟩, ids, orders, own, bound, all, attempted,
      rfl⟩ := h
    obtain ⟨rfl, -⟩ := orderIds_eq_ok orders
    refine ⟨⟨named, nonempty, record, found, side, orders⟩, fresh, rfl, rfl, ?_⟩
    simp only [boundEntries, found]
    rw [(bindOrders_eq_ok.1 attempted).2, (bindOrders_eq_ok.1 bound).2, List.append_assoc]

theorem walkIntents_eq_ok {s : StoreState} {v : ViewKey} {entries : List (String × HedgeIntent)}
    {w w' : Walk} (h : entries.foldlM (walkIntent s v) w = .ok w') :
    (∀ entry ∈ entries, Walked s entry) ∧ (∀ entry ∈ entries, entry.1 ∉ w.intents) ∧
      w'.intents = w.intents ∪ (entries.map Prod.fst).toFinset ∧ w'.sources = w.sources ∧
      w'.bindings.entries =
        w.bindings.entries ++ entries.flatMap fun entry => boundEntries s v entry.2 := by
  induction entries generalizing w with
  | nil =>
    simp only [List.foldlM_nil, pure_eq_ok] at h
    subst h
    simp
  | cons entry entries ih =>
    simp only [List.foldlM_cons, bind_eq_ok] at h
    obtain ⟨u, turn, loop⟩ := h
    obtain ⟨walked, fresh, intents, sources, bindings⟩ := walkIntent_eq_ok turn
    obtain ⟨others, apart, intents', sources', bindings'⟩ := ih loop
    refine ⟨List.forall_mem_cons.2 ⟨walked, others⟩, List.forall_mem_cons.2 ⟨fresh, ?_⟩, ?_,
      sources'.trans sources, ?_⟩
    · intro other member known
      exact apart other member (by rw [intents]; exact Finset.mem_insert_of_mem known)
    · rw [intents', intents, List.map_cons, List.toFinset_cons, Finset.insert_union,
        Finset.union_insert]
    · rw [bindings', bindings, List.flatMap_cons, List.append_assoc]

/-- A walk over source orders leaves the intents and the bindings alone. -/
theorem walkSources_eq_ok {entries : List (String × SourceOrderRecord)} {w w' : Walk}
    (h : entries.foldlM walkSource w = .ok w') :
    w'.intents = w.intents ∧ w'.bindings = w.bindings := by
  refine foldlM_invariant (P := fun u => u.intents = w.intents ∧ u.bindings = w.bindings)
    (fun u entry u' kept turn => ?_) ⟨rfl, rfl⟩ h
  simp only [walkSource, bind_unit_eq_ok, raiseIf_eq_ok, pure_eq_ok] at turn
  obtain ⟨-, rfl⟩ := turn
  exact kept

/-- Every intent of a list of views, with its view. -/
def intentsOf (view : ViewKey → StoreState) (keys : List ViewKey) : List (ViewKey × HedgeIntent) :=
  keys.flatMap fun v => (view v).hedgeIntents.values.map fun intent => (v, intent)

theorem mem_intentsOf {view : ViewKey → StoreState} {keys : List ViewKey} {v : ViewKey}
    {intent : HedgeIntent} :
    (v, intent) ∈ intentsOf view keys ↔ v ∈ keys ∧ intent ∈ (view v).hedgeIntents.values := by
  simp only [intentsOf, List.mem_flatMap, List.mem_map, Prod.mk.injEq]
  constructor
  · rintro ⟨_, known, _, member, rfl, rfl⟩
    exact ⟨known, member⟩
  · rintro ⟨known, member⟩
    exact ⟨v, known, intent, member, rfl, rfl⟩

/-- What a walk over all views establishes. -/
structure WalkFacts (view : ViewKey → StoreState) (keys : List ViewKey) (w : Walk) : Prop where
  walked : ∀ v ∈ keys, ∀ entry ∈ (view v).hedgeIntents.entries, Walked (view v) entry
  identities : ((intentsOf view keys).map fun held => held.2.intentId).Nodup
  bindings : w.bindings.entries =
    (intentsOf view keys).flatMap fun held => boundEntries (view held.1) held.1 held.2

theorem walkViews_eq_ok {view : ViewKey → StoreState} {keys : List ViewKey} {w w' : Walk}
    (h : keys.foldlM (walkView view) w = .ok w') :
    (∀ v ∈ keys, ∀ entry ∈ (view v).hedgeIntents.entries, Walked (view v) entry) ∧
      ((intentsOf view keys).map fun held => held.2.intentId).Nodup ∧
      (∀ held ∈ intentsOf view keys, held.2.intentId ∉ w.intents) ∧
      w'.bindings.entries = w.bindings.entries ++
        (intentsOf view keys).flatMap fun held => boundEntries (view held.1) held.1 held.2 := by
  induction keys generalizing w with
  | nil =>
    simp only [List.foldlM_nil, pure_eq_ok] at h
    subst h
    simp [intentsOf]
  | cons v keys ih =>
    simp only [List.foldlM_cons, bind_eq_ok, walkView, raiseIf_eq_ok, exists_const] at h
    obtain ⟨u', ⟨-, u, sources, intents⟩, loop⟩ := h
    obtain ⟨intents₁, bindings₁⟩ := walkSources_eq_ok sources
    obtain ⟨walked, fresh, intents₂, -, bindings₂⟩ := walkIntents_eq_ok intents
    obtain ⟨others, nodup, apart, bindings₃⟩ := ih loop
    have named : (view v).hedgeIntents.entries.map Prod.fst =
        (view v).hedgeIntents.values.map (·.intentId) := by
      rw [Dict.values, List.map_map]
      exact List.map_congr_left fun entry member => (walked entry member).named
    have split : intentsOf view (v :: keys) =
        ((view v).hedgeIntents.values.map fun intent => (v, intent)) ++ intentsOf view keys := rfl
    have own : (((view v).hedgeIntents.values.map fun intent => (v, intent)).map
        fun held : ViewKey × HedgeIntent => held.2.intentId) =
        (view v).hedgeIntents.entries.map Prod.fst := by
      rw [named, List.map_map]
      rfl
    refine ⟨List.forall_mem_cons.2 ⟨walked, others⟩, ?_, ?_, ?_⟩
    · rw [split, List.map_append, List.nodup_append, own]
      refine ⟨(view v).hedgeIntents.nodup, nodup, ?_⟩
      rintro id here id' there rfl
      obtain ⟨held, member, rfl⟩ := List.mem_map.1 there
      apply apart held member
      rw [intents₂, Finset.mem_union, List.mem_toFinset]
      exact .inr here
    · rw [split]
      intro held member known
      rcases List.mem_append.1 member with here | there
      · have key : held.2.intentId ∈ (view v).hedgeIntents.entries.map Prod.fst := by
          rw [← own]
          exact List.mem_map_of_mem here
        obtain ⟨entry, listed, same⟩ := List.mem_map.1 key
        apply fresh entry listed
        rw [intents₁, same]
        exact known
      · apply apart held there
        rw [intents₂, Finset.mem_union, intents₁]
        exact .inl known
    · rw [bindings₃, bindings₂, bindings₁, split, List.flatMap_append, List.append_assoc]
      congr 2
      rw [Dict.values, List.map_map, List.flatMap_map]
      rfl

theorem walkFacts {view : ViewKey → StoreState} {keys : List ViewKey} {w : Walk}
    (h : keys.foldlM (walkView view) {} = .ok w) : WalkFacts view keys w := by
  obtain ⟨walked, identities, -, bindings⟩ := walkViews_eq_ok h
  exact ⟨walked, identities, bindings⟩

/-- The fills an order of the set shows. -/
def fillsOf (orders : Dict String Order) (cid : String) : List OrderFilled :=
  match orders.get? cid with
  | none => []
  | some order => order.fills

/-- The part of an order's fills that its view has seen. -/
def counted (view : ViewKey → StoreState) (orders : Dict String Order)
    (entry : String × Binding) : ℚ :=
  totalQty ((fillsOf orders entry.1).take (seenOf (view entry.2.view) entry.1).card)

/-- The fills of an order that its view has not seen. -/
def lacking (view : ViewKey → StoreState) (orders : Dict String Order)
    (entry : String × Binding) : List (ViewKey × HedgeFill) :=
  ((fillsOf orders entry.1).drop (seenOf (view entry.2.view) entry.1).card).map fun fill =>
    (entry.2.view, business fill)

theorem checkedFills_eq_ok {route : NativeRoute} {order : Order} {record : SourceOrderRecord}
    {intent : HedgeIntent} {index : ℕ} {fills : List OrderFilled}
    (h : checkedFills route order record intent index = .ok fills) :
    fills = order.fills ∧ ∀ fill ∈ fills, fill.clientOrderId = order.clientOrderId ∧
      some fill.accountId = order.accountId ∧ '|' ∉ fill.tradeId.toList ∧ 0 < fill.lastQty := by
  unfold checkedFills at h
  dsimp only at h
  split at h
  · simp only [bind_eq_ok, raiseIf_eq_ok, pure_eq_ok, exists_const] at h
    obtain ⟨-, owned, sound, -, rfl⟩ := h
    refine ⟨rfl, fun fill member => ?_⟩
    have facts := fun bad => sound ⟨fill, member, bad⟩
    simp only [not_or, not_not, imp_false, not_le] at facts
    obtain ⟨account, -, bar, -, -, -, -, positive⟩ := facts
    obtain ⟨event, listed, same⟩ := List.mem_filterMap.1 member
    have owner : event.owner.clientOrderId = order.clientOrderId := by
      by_contra other
      exact owned ⟨event, listed, .inl fun equal => other (by rw [equal])⟩
    cases event with
    | filled filled =>
      cases same
      exact ⟨owner, account, bar, positive⟩
    | initialized | other => cases same
  · cases h

theorem checkedFills_le {route : NativeRoute} {order : Order} {record : SourceOrderRecord}
    {intent : HedgeIntent} {index : ℕ} {fills : List OrderFilled}
    (h : checkedFills route order record intent index = .ok fills) :
    totalQty fills ≤ boundQuantity intent index := by
  unfold checkedFills at h
  dsimp only at h
  split at h
  · simp only [bind_eq_ok, raiseIf_eq_ok, pure_eq_ok, exists_const, not_or, not_lt] at h
    obtain ⟨-, -, -, ⟨-, fits, -⟩, rfl⟩ := h
    exact fits
  · cases h

theorem claimTrades_nodup {fills : List OrderFilled} {trades trades' : Finset (String × String)}
    (h : fills.foldlM claimTrade trades = .ok trades') :
    (fills.map fun fill => (fill.accountId, fill.tradeId)).Nodup ∧
      ∀ fill ∈ fills, (fill.accountId, fill.tradeId) ∉ trades := by
  induction fills generalizing trades with
  | nil => simp
  | cons fill fills ih =>
    simp only [List.foldlM_cons, claimTrade, bind_eq_ok, raiseIf_eq_ok, pure_eq_ok,
      exists_const] at h
    obtain ⟨u, ⟨fresh, rfl⟩, loop⟩ := h
    obtain ⟨nodup, apart⟩ := ih loop
    refine ⟨?_, List.forall_mem_cons.2 ⟨fresh, fun other member known => ?_⟩⟩
    · rw [List.map_cons, List.nodup_cons]
      refine ⟨fun again => ?_, nodup⟩
      obtain ⟨other, member, same⟩ := List.mem_map.1 again
      exact apart other member (by rw [same]; exact Finset.mem_insert_self _ _)
    · exact apart other member (Finset.mem_insert_of_mem known)

/-- What the count leaves of one native order. -/
structure Counted (store : BusinessStore) (route : NativeRoute) (orders : Dict String Order)
    (view : ViewKey → StoreState) (entry : String × Binding) : Prop where
  order : ∃ order, orders.get? entry.1 = some order ∧
    checkedFills { route with strategyId := store.strategyId route.strategyId entry.2.view }
      order entry.2.record entry.2.intent entry.2.index = .ok order.fills ∧
    (isRejectedAttempt entry.2.intent entry.1 →
      order.status = .rejected ∧ order.filledQty = 0 ∧ order.fills = [] ∧ order.tradeIds = []) ∧
    (¬isRejectedAttempt entry.2.intent entry.1 →
      (order.fills.map fun fill => (fill.accountId, fill.tradeId)).Nodup ∧
      seenOf (view entry.2.view) entry.1 =
        ((order.fills.map key).take (seenOf (view entry.2.view) entry.1).card).toFinset ∧
      (entry.2.intent.hedgeClientOrderId ≠ some entry.1 → order.status = .filled ∧
        (seenOf (view entry.2.view) entry.1).card = order.fills.length) ∧
      (lacking view orders entry ≠ [] → entry.2.intent.status ≠ .completed ∧
        entry.2.intent.hedgeClientOrderId = some entry.1))

/-- The count after one more order. -/
structure Adds (orders : Dict String Order) (view : ViewKey → StoreState) (c c' : Count)
    (entry : String × Binding) : Prop where
  totals : ∀ id, c'.totals id =
    c.totals id + if entry.2.intent.intentId = id then counted view orders entry else 0
  currentTotals : ∀ id, c'.currentTotals id =
    if entry.2.intent.intentId = id ∧ entry.2.intent.hedgeClientOrderId = some entry.1 ∧
        ¬isRejectedAttempt entry.2.intent entry.1 then counted view orders entry
    else c.currentTotals id
  keys : ∀ v k, k ∈ c'.keysByView v ↔ k ∈ c.keysByView v ∨
    entry.2.view = v ∧ ∃ fill ∈ fillsOf orders entry.1, key fill = k
  missing : c'.missing = c.missing ++ lacking view orders entry

theorem countOrder_eq_ok {store : BusinessStore} {route : NativeRoute} {orders : Dict String Order}
    {view : ViewKey → StoreState} {c c' : Count} {entry : String × Binding}
    (h : countOrder store route orders view c entry = .ok c') :
    Counted store route orders view entry ∧ Adds orders view c c' entry := by
  obtain ⟨cid, b⟩ := entry
  unfold countOrder at h
  dsimp only at h
  split at h
  · cases h
  · rename_i order found
    have fills' : fillsOf orders cid = order.fills := by simp only [fillsOf, found]
    simp only [bind_eq_ok] at h
    obtain ⟨fills, checked, h⟩ := h
    obtain ⟨rfl, -⟩ := checkedFills_eq_ok checked
    split at h
    · rename_i archived
      simp only [raiseIf_eq_ok, bind_eq_ok, pure_eq_ok, exists_const, not_or, not_not] at h
      obtain ⟨facts, rfl⟩ := h
      have empty : fillsOf orders cid = [] := fills'.trans facts.2.2.1
      refine ⟨⟨order, found, checked, fun _ => facts, fun live => absurd archived live⟩, ?_, ?_, ?_,
        ?_⟩
      · simp [counted, empty]
      · simp [archived]
      · simp [empty]
      · simp [lacking, empty]
    · rename_i live
      simp only [countFills, bind_eq_ok, raiseIf_eq_ok, pure_eq_ok, exists_const, not_or, not_and,
        not_not] at h
      obtain ⟨trades, claimed, seen, history, late, rfl⟩ := h
      refine ⟨⟨order, found, checked, fun archived => absurd archived live, fun _ =>
        ⟨(claimTrades_nodup claimed).1, seen, history, fun lacks => ?_⟩⟩, ?_, ?_, ?_, ?_⟩
      · have some' : order.fills.drop (seenOf (view b.view) cid).card ≠ [] := by
          intro none'
          apply lacks
          simp only [lacking, fills', none', List.map_nil]
        exact ⟨(late some').1, (late some').2.1⟩
      · intro id
        dsimp only
        by_cases same : b.intent.intentId = id
        · subst same
          simp [counted, fills']
        · rw [Function.update_of_ne (Ne.symm same), if_neg same, add_zero]
      · intro id
        dsimp only
        by_cases current : b.intent.hedgeClientOrderId = some cid
        · by_cases same : b.intent.intentId = id
          · subst same
            simp [current, live, counted, fills']
          · rw [if_pos current, Function.update_of_ne (Ne.symm same), if_neg (fun h => same h.1)]
        · simp [current]
      · intro v k
        dsimp only
        by_cases same : b.view = v
        · subst same
          simp [fills']
        · rw [Function.update_of_ne (Ne.symm same)]
          simp [same]
      · simp [lacking, fills']

theorem countOrders_eq_ok {store : BusinessStore} {route : NativeRoute}
    {orders : Dict String Order} {view : ViewKey → StoreState} {c c' : Count}
    {entries : List (String × Binding)}
    (h : entries.foldlM (countOrder store route orders view) c = .ok c') :
    (∀ entry ∈ entries, Counted store route orders view entry) ∧
      (∀ id, c'.totals id = c.totals id + ((entries.filter fun entry =>
        entry.2.intent.intentId = id).map (counted view orders)).sum) ∧
      (∀ v k, k ∈ c'.keysByView v ↔ k ∈ c.keysByView v ∨ ∃ entry ∈ entries,
        entry.2.view = v ∧ ∃ fill ∈ fillsOf orders entry.1, key fill = k) ∧
      c'.missing = c.missing ++ entries.flatMap (lacking view orders) := by
  induction entries generalizing c with
  | nil =>
    simp only [List.foldlM_nil, pure_eq_ok] at h
    subst h
    simp
  | cons entry entries ih =>
    simp only [List.foldlM_cons, bind_eq_ok] at h
    obtain ⟨u, turn, loop⟩ := h
    obtain ⟨counts, adds⟩ := countOrder_eq_ok turn
    obtain ⟨others, totals, keys, missing⟩ := ih loop
    refine ⟨List.forall_mem_cons.2 ⟨counts, others⟩, fun id => ?_, fun v k => ?_, ?_⟩
    · rw [totals, adds.totals, List.filter_cons]
      by_cases same : entry.2.intent.intentId = id
      · simp only [same, if_true, decide_true, List.map_cons, List.sum_cons]
        ring
      · simp [same]
    · rw [keys, adds.keys, or_assoc, List.exists_mem_cons_iff]
    · rw [missing, adds.missing, List.flatMap_cons, List.append_assoc]

/-- The progress of a current order stays once it is counted. -/
theorem countOrders_current {store : BusinessStore} {route : NativeRoute}
    {orders : Dict String Order} {view : ViewKey → StoreState} {c c' : Count}
    {entries : List (String × Binding)} {id : String} {x : ℚ}
    (h : entries.foldlM (countOrder store route orders view) c = .ok c')
    (only : ∀ entry ∈ entries, entry.2.intent.intentId = id →
      entry.2.intent.hedgeClientOrderId = some entry.1 →
      ¬isRejectedAttempt entry.2.intent entry.1 → counted view orders entry = x)
    (start : c.currentTotals id = x ∨ ∃ entry ∈ entries, entry.2.intent.intentId = id ∧
      entry.2.intent.hedgeClientOrderId = some entry.1 ∧
      ¬isRejectedAttempt entry.2.intent entry.1) : c'.currentTotals id = x := by
  induction entries generalizing c with
  | nil =>
    simp only [List.foldlM_nil, pure_eq_ok] at h
    subst h
    simpa using start
  | cons entry entries ih =>
    simp only [List.foldlM_cons, bind_eq_ok] at h
    obtain ⟨u, turn, loop⟩ := h
    obtain ⟨-, adds⟩ := countOrder_eq_ok turn
    refine ih loop (fun other member => only other (List.mem_cons_of_mem _ member)) ?_
    rw [adds.currentTotals]
    by_cases here : entry.2.intent.intentId = id ∧
        entry.2.intent.hedgeClientOrderId = some entry.1 ∧
        ¬isRejectedAttempt entry.2.intent entry.1
    · rw [if_pos here]
      exact .inl (only entry (by simp) here.1 here.2.1 here.2.2)
    · rw [if_neg here]
      apply start.imp_right
      rintro ⟨other, member, facts⟩
      rcases List.mem_cons.1 member with rfl | later
      · exact absurd facts here
      · exact ⟨other, later, facts⟩

end ArbNautilus.Store.HedgeProjection
