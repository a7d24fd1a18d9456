import ArbNautilus.Store.HedgeProjected

namespace ArbNautilus.Store.HedgeProjection

open Base Native

/-- The same binding, before and after the fills its intent lacked. -/
structure Twin (entry entry' : String × Binding) : Prop where
  cid : entry'.1 = entry.1
  view : entry'.2.view = entry.2.view
  record : entry'.2.record = entry.2.record
  index : entry'.2.index = entry.2.index
  framed : frame entry'.2.intent = frame entry.2.intent

structure Twins (w w' : Walk) : Prop where
  sources : w'.sources = w.sources
  intents : w'.intents = w.intents
  sourceFills : w'.sourceFills = w.sourceFills
  bindings : List.Forall₂ Twin w.bindings.entries w'.bindings.entries

theorem map_fst_of_twins {entries entries' : List (String × Binding)}
    (h : List.Forall₂ Twin entries entries') : entries'.map Prod.fst = entries.map Prod.fst := by
  induction h with
  | nil => rfl
  | cons twin _ ih => rw [List.map_cons, List.map_cons, twin.cid, ih]

theorem bindOrders_twin {message : String} {d d₁ d' : Dict String Binding}
    {entries entries' : List (String × Binding)}
    (before : List.Forall₂ Twin d.entries d'.entries) (twins : List.Forall₂ Twin entries entries')
    (h : entries.foldlM (bindOrder message) d = .ok d₁) :
    ∃ d₁', entries'.foldlM (bindOrder message) d' = .ok d₁' ∧
      List.Forall₂ Twin d₁.entries d₁'.entries := by
  obtain ⟨nodup, all⟩ := bindOrders_eq_ok.1 h
  have joined := List.rel_append before twins
  rw [← map_fst_of_twins joined] at nodup
  refine ⟨⟨d'.entries ++ entries', nodup⟩, bindOrders_eq_ok.2 ⟨nodup, rfl⟩, ?_⟩
  rw [all]
  exact joined

theorem ownBindings_twin {v : ViewKey} {i j : HedgeIntent} (same : frame j = frame i)
    (record : SourceOrderRecord) (ids : List String) :
    List.Forall₂ Twin (ownBindings v i record ids) (ownBindings v j record ids) := by
  unfold ownBindings
  rw [List.forall₂_map_left_iff, List.forall₂_map_right_iff, List.forall₂_same]
  exact fun _ _ => ⟨rfl, rfl, rfl, rfl, same⟩

theorem attemptBindings_twin {v : ViewKey} {i j : HedgeIntent} (same : frame j = frame i)
    (record : SourceOrderRecord) :
    List.Forall₂ Twin (attemptBindings v i record) (attemptBindings v j record) := by
  unfold attemptBindings
  rw [frame_attempt same, List.forall₂_map_left_iff, List.forall₂_map_right_iff, List.forall₂_same]
  exact fun _ _ => ⟨rfl, rfl, rfl, rfl, same⟩

theorem walkIntent_twin {s s' : StoreState} {v : ViewKey} {w w₁ w' : Walk}
    {entry entry' : String × HedgeIntent} (sources : s'.sourceOrders = s.sourceOrders)
    (seen : s'.seenSourceFills = s.seenSourceFills) (twins : Twins w w')
    (same : entry'.1 = entry.1 ∧ frame entry'.2 = frame entry.2)
    (h : walkIntent s v w entry = .ok w₁) :
    ∃ w₁', walkIntent s' v w' entry' = .ok w₁' ∧ Twins w₁ w₁' := by
  obtain ⟨identity, i⟩ := entry
  obtain ⟨identity', j⟩ := entry'
  obtain ⟨rfl, same⟩ := same
  obtain ⟨order, -, side⟩ := frame_source same
  unfold walkIntent at h ⊢
  dsimp only at h ⊢
  rw [order, sources]
  split at h
  · cases h
  · rename_i record found
    simp only [bind_eq_ok, raiseIf_eq_ok, pure_eq_ok, exists_const] at h
    obtain ⟨known, ids, orders, own, bound, all, attempted, rfl⟩ := h
    obtain ⟨own', bound', twins₁⟩ :=
      bindOrders_twin twins.bindings (ownBindings_twin (v := v) same record ids) bound
    obtain ⟨all', attempted', twins₂⟩ :=
      bindOrders_twin twins₁ (attemptBindings_twin (v := v) same record) attempted
    refine ⟨{ w' with
      intents := insert identity' w'.intents
      sourceFills := insert j.fillKey w'.sourceFills
      bindings := all' }, ?_, twins.sources, ?_, ?_, twins₂⟩
    · simp only [found, bind_eq_ok, raiseIf_eq_ok, pure_eq_ok, exists_const]
      refine ⟨?_, ids, ?_, own', bound', all', attempted', rfl⟩
      · rw [frame_intentId same, frame_fillKey same, side, frame_namesSourceFill same,
          twins.intents, twins.sourceFills, seen]
        exact known
      · rw [frame_orderIds_eq same]
        exact orders
    · rw [twins.intents]
    · rw [twins.sourceFills, frame_fillKey same]

theorem forall₂_of_image {d d' : Dict String HedgeIntent} (same : d'.image frame = d.image frame) :
    List.Forall₂ (fun entry entry' : String × HedgeIntent =>
      entry'.1 = entry.1 ∧ frame entry'.2 = frame entry.2) d.entries d'.entries := by
  have lists : List.Forall₂ Eq (d.image frame) (d'.image frame) := by
    rw [same, List.forall₂_eq_eq_eq]
  unfold Dict.image at lists
  rw [List.forall₂_map_left_iff, List.forall₂_map_right_iff] at lists
  refine lists.imp fun entry entry' equal => ?_
  rw [Prod.mk.injEq] at equal
  exact ⟨equal.1.symm, equal.2.symm⟩

theorem walkView_twin {view view' : ViewKey → StoreState} {fills : List HedgeFill} {v : ViewKey}
    {s : StoreState} {w w₁ w' : Walk} (sources : s.sourceOrders = (view v).sourceOrders)
    (active : s.activeSourceOrderId = (view v).activeSourceOrderId)
    (seen : s.seenSourceFills = (view v).seenSourceFills)
    (intents : s.hedgeIntents = (view v).hedgeIntents) (grown : Grown fills s (view' v))
    (twins : Twins w w') (h : walkView view w v = .ok w₁) :
    ∃ w₁', walkView view' w' v = .ok w₁' ∧ Twins w₁ w₁' := by
  simp only [walkView, bind_eq_ok, raiseIf_eq_ok, exists_const] at h
  obtain ⟨known, mid, walked, bound⟩ := h
  have first : ∃ mid', (view v).sourceOrders.entries.foldlM walkSource w' = .ok mid' ∧
      Twins mid mid' := by
    refine foldlM_simulates (R := Twins) (S := Eq) (fun u t a b u' related equal turn => ?_)
      (by rw [List.forall₂_eq_eq_eq]) twins walked
    subst equal
    simp only [walkSource, bind_eq_ok, raiseIf_eq_ok, pure_eq_ok, exists_const] at turn
    obtain ⟨fresh, rfl⟩ := turn
    refine ⟨{ t with sources := insert a.1 t.sources }, ?_, ?_, related.intents,
      related.sourceFills, related.bindings⟩
    · simp only [walkSource, bind_eq_ok, raiseIf_eq_ok, pure_eq_ok, exists_const, and_true,
        related.sources]
      exact fresh
    · rw [related.sources]
  obtain ⟨mid', walked', twins'⟩ := first
  have image : (view' v).hedgeIntents.image frame = (view v).hedgeIntents.image frame := by
    rw [grown.image, intents]
  obtain ⟨w₁', bound', last⟩ := foldlM_simulates (R := Twins) (f := walkIntent (view v) v)
    (g := walkIntent (view' v) v)
    (fun u t a b u' related same turn =>
      walkIntent_twin (grown.sources.trans sources) (grown.seenSources.trans seen) related same
        turn)
    (forall₂_of_image image) twins' bound
  refine ⟨w₁', ?_, last⟩
  simp only [walkView, bind_eq_ok, raiseIf_eq_ok, exists_const]
  refine ⟨?_, mid', ?_, bound'⟩
  · rw [grown.active, active, grown.sources, sources]
    exact known
  · rw [grown.sources, sources]
    exact walked'

/-- Counted again, an order whose fills its view has seen lacks none. -/
theorem countOrder_twin {store store' : BusinessStore} {route : NativeRoute} {orders : List Order}
    {view view' : ViewKey → StoreState} {c c₁ c' : Count} {entry entry' : String × Binding}
    (strategy : store'.strategyId = store.strategyId) (twin : Twin entry entry')
    (all : ¬isRejectedAttempt entry.2.intent entry.1 →
      seenOf (view' entry.2.view) entry.1 =
        ((fillsOf (byId orders) entry.1).map key).toFinset)
    (trades : c'.trades = c.trades)
    (h : countOrder store route (byId orders) view c entry = .ok c₁) :
    ∃ c₁', countOrder store' route (byId orders) view' c' entry' = .ok c₁' ∧
      c₁'.trades = c₁.trades ∧ c₁'.missing = c'.missing := by
  have counts := (countOrder_eq_ok h).1
  obtain ⟨cid, b⟩ := entry
  obtain ⟨cid', b'⟩ := entry'
  obtain ⟨rfl, sameView, sameRecord, sameIndex, framed⟩ := twin
  dsimp only at sameView sameRecord sameIndex framed all counts
  unfold countOrder at h ⊢
  dsimp only at h ⊢
  split at h
  · cases h
  · rename_i order found
    have fills' : fillsOf (byId orders) cid' = order.fills := by simp only [fillsOf, found]
    simp only [bind_eq_ok] at h
    obtain ⟨fills, checked, h⟩ := h
    obtain ⟨rfl, -⟩ := checkedFills_eq_ok checked
    have checked' : checkedFills
        { route with strategyId := store'.strategyId route.strategyId b'.view } order b'.record
        b'.intent b'.index = .ok order.fills := by
      rw [strategy, sameView, sameRecord, sameIndex, frame_checkedFills framed]
      exact checked
    have archives : isRejectedAttempt b'.intent cid' ↔ isRejectedAttempt b.intent cid' :=
      frame_isRejectedAttempt framed cid'
    simp only [bind_eq_ok, checked', Except.ok.injEq, exists_eq_left']
    split at h
    · rename_i archived
      rw [if_pos (archives.2 archived)]
      simp only [raiseIf_eq_ok, bind_eq_ok, pure_eq_ok, exists_const] at h ⊢
      obtain ⟨facts, rfl⟩ := h
      exact ⟨c', ⟨facts, rfl⟩, trades, rfl⟩
    · rename_i live
      rw [if_neg fun archived => live (archives.1 archived)]
      have facts := counts.orderFacts live
      have seen := all live
      have card : (seenOf (view' b.view) _).card = _ := facts.card_all seen
      rw [fills'] at card seen
      simp only [countFills, bind_eq_ok, raiseIf_eq_ok, pure_eq_ok, exists_const, not_or, not_and,
        not_not] at h ⊢
      obtain ⟨claimed, claims, -, history, -, rfl⟩ := h
      refine ⟨_, ⟨claimed, by rw [trades]; exact claims, ?_, ?_, ?_, rfl⟩, rfl, ?_⟩
      · rw [sameView, card, ← List.length_map (f := key), List.take_length]
        exact seen
      · intro other
        rw [frame_current framed] at other
        exact ⟨(history other).1, by rw [sameView, card]⟩
      · intro late
        rw [sameView, card, List.drop_length] at late
        exact absurd rfl late
      · rw [sameView, card, List.drop_length, List.map_nil, List.append_nil]

theorem boundOrders_of_frame {i j : HedgeIntent} (same : frame j = frame i) :
    boundOrders j = boundOrders i := by
  unfold boundOrders unplannedOrders
  rw [frame_plan same, frame_legOrderIds same, frame_current same]

/-- A leg is part of its plan. -/
theorem planQuantity_take_add_le {plan : List HedgeLeg} {index : ℕ} {leg : HedgeLeg}
    (h : plan[index]? = some leg) :
    leg.quantityOunces + planQuantity (plan.take index) ≤ planQuantity plan := by
  obtain ⟨inside, rfl⟩ := List.getElem?_eq_some_iff.1 h
  have rest : 0 ≤ planQuantity (plan.drop (index + 1)) := by
    apply List.sum_nonneg
    intro x member
    obtain ⟨leg, -, rfl⟩ := List.mem_map.1 member
    exact leg.quantity_pos.le
  have lists : plan = plan.take index ++ plan[index] :: plan.drop (index + 1) := by
    rw [List.getElem_cons_drop, List.take_append_drop]
  have split : planQuantity plan = planQuantity (plan.take index) +
      (plan[index].quantityOunces + planQuantity (plan.drop (index + 1))) :=
    calc planQuantity plan
        = planQuantity (plan.take index ++ plan[index] :: plan.drop (index + 1)) :=
          congrArg planQuantity lists
      _ = _ := by
          simp only [planQuantity, List.map_append, List.sum_append, List.map_cons, List.sum_cons]
  linarith

section Suffix

variable {store : BusinessStore} {orders : List Order} {route : NativeRoute} {w : Walk} {c : Count}

/-- The quantity a current order may still add fits its intent. -/
theorem Evidence.room (evidence : Evidence store.view store.viewKeys (byId orders)) {v : ViewKey}
    {i : HedgeIntent} (held : (v, i) ∈ intentsOf store.view store.viewKeys) {cid : String}
    (current : i.hedgeClientOrderId = some cid) :
    i.hedgeFilledOunces + (totalQty (fillsOf (byId orders) cid) -
      progress (store.view v) (byId orders) cid) ≤ i.hedgeQuantityOunces := by
  have fits := evidence.bounded v i held cid current
  obtain ⟨own, inLeg⟩ := (evidence.plain v i held).2.2 cid current
  by_cases planned : i.hedgePlan = []
  · have alone : boundOrders i = [cid] := by
      have single := evidence.single v i held planned
      obtain ⟨only, same⟩ := List.length_eq_one_iff.1
        (le_antisymm single (List.length_pos_of_mem own))
      rw [same, List.mem_singleton] at own
      rw [same, own]
    have filled := evidence.filled v i held
    rw [alone, List.map_singleton, List.sum_singleton] at filled
    have whole : boundQuantity i i.hedgeLegIndex = i.hedgeQuantityOunces := by
      simp [boundQuantity, planned]
    rw [whole] at fits
    linarith
  · have inside := inLeg planned
    have leg := List.getElem?_eq_getElem inside
    have part := planQuantity_take_add_le leg
    have whole := (i.sound.planned planned).quantity
    have legs := evidence.legs v i held planned
    have legFilled := evidence.legFilled v i held planned
    rw [current, Option.map_some, Option.getD_some] at legFilled
    have bound : boundQuantity i i.hedgeLegIndex = i.hedgePlan[i.hedgeLegIndex].quantityOunces := by
      simp only [boundQuantity, leg]
    rw [bound] at fits
    linarith

end Suffix

end ArbNautilus.Store.HedgeProjection
