import ArbNautilus.Base.Traverse
import ArbNautilus.Store.Conservation
import ArbNautilus.Store.HedgeCaught
import ArbNautilus.Store.SourceCaught

/-! The walk over the source orders, made again over what it appended. -/

namespace ArbNautilus.Store.SourceProjection

open Base Native HedgeProjection

/-- A list with one part longer than another. -/
theorem perm_flatMap_extend {α β : Type} {keys : List α} (nodup : keys.Nodup) {v : α}
    (known : v ∈ keys)
    {f g : α → List β} {new : List β} (here : g v = f v ++ new)
    (others : ∀ w ∈ keys, w ≠ v → g w = f w) :
    (keys.flatMap g).Perm (keys.flatMap f ++ new) := by
  induction keys with
  | nil => cases known
  | cons w keys ih =>
    rw [List.nodup_cons] at nodup
    rw [List.flatMap_cons, List.flatMap_cons]
    by_cases same : w = v
    · subst same
      have rest : keys.flatMap g = keys.flatMap f := by
        apply List.flatMap_congr
        intro w' member
        apply others w' (List.mem_cons_of_mem _ member)
        rintro rfl
        exact nodup.1 member
      rw [here, rest, List.append_assoc, List.append_assoc]
      exact List.perm_append_comm.append_left _
    · have there := (List.mem_cons.1 known).resolve_left (Ne.symm same)
      rw [others w List.mem_cons_self same, List.append_assoc]
      exact (ih nodup.2 there fun w' member =>
        others w' (List.mem_cons_of_mem _ member)).append_left _

theorem totalQty_nonneg {fills : List OrderFilled} (positive : ∀ fill ∈ fills, 0 < fill.lastQty) :
    0 ≤ totalQty fills := by
  apply List.sum_nonneg
  intro x member
  obtain ⟨fill, listed, rfl⟩ := List.mem_map.1 member
  exact (positive fill listed).le

section After

variable {digest : String → String} {reason : String} {store store' : BusinessStore}
  {orders : List Order}
  {route : NativeRoute} {facts : Facts} {entry : String × (ViewKey × SourceOrderRecord)}
  {taken : List (SourceFill × ℤ)} (due : DueSuffix store orders route facts entry)
  (after : Published digest reason entry.2.1 (dueFills store (byId orders) entry)
    taken store store')

include due after

/-- Compared again, an order lacks nothing. -/
theorem Published.compareAgain {f f₁ f' : Facts} {other : String × (ViewKey × SourceOrderRecord)}
    (member : other ∈ recordEntries store)
    (same : f'.nativeFills = f.nativeFills ∧ f'.trades = f.trades ∧ f'.suffixes = [])
    (h : compareOrder store route (byId orders) f other = .ok f₁) :
    ∃ f₁', compareOrder store' route (byId orders) f'
      (grow (dueFills store (byId orders) entry) other) = .ok f₁' ∧
      f₁'.nativeFills = f₁.nativeFills ∧ f₁'.trades = f₁.trades ∧ f₁'.suffixes = [] := by
  have seen := after.seenAll due member
  have filled := after.filledAll due member
  have nodup := due.gathered.nodup_keys member
  obtain ⟨order, found, fills, -, fits, checked, each⟩ := due.gathered.order member
  rw [fills] at seen filled nodup
  have card : (seenOf (store'.view other.2.1) other.1).card = (order.fills.map key).length := by
    rw [seen, List.toFinset_card_of_nodup nodup]
  have again :
      checkedFills { route with strategyId := store'.strategyId route.strategyId other.2.1 } order
      (grown (dueFills store (byId orders) entry) other.1 other.2.2) = .ok order.fills := by
    rw [after.strategy]
    apply checkedFills_grown checked
    · exact grown_cid _ _ _
    · exact grown_field (fun _ _ => rfl) _ _ _
    · exact grown_field (fun _ _ => rfl) _ _ _
    · exact grown_field (fun _ _ => rfl) _ _ _
    · rw [filled]
      exact totalQty_nonneg fun fill listed => (each fill listed).2.2
    · rw [filled]
      exact fits
  obtain ⟨cid, v, record⟩ := other
  unfold compareOrder at h ⊢
  simp only [grow, found, again, checked, bind_eq_ok, Except.ok.injEq, exists_eq_left'] at h ⊢
  simp only [comparePrefix, bind_eq_ok, raiseIf_eq_ok, pure_eq_ok, exists_const, not_not] at h ⊢
  obtain ⟨claims, claimed, -, -, rfl⟩ := h
  dsimp only at card seen filled
  refine ⟨_, ⟨claims, ?_, ?_, ?_, rfl⟩, rfl, rfl, ?_⟩
  · rw [same.1, same.2.1]
    exact claimed
  · rw [card, List.take_length]
    exact seen
  · rw [card, List.length_map, List.take_length, filled]
  · rw [card, List.length_map, List.drop_length, if_pos rfl]
    exact same.2.2

theorem Published.gatherLoop
    (loop : (recordEntries store).foldlM (compareOrder store route (byId orders)) {} =
      .ok facts) :
    ∃ facts', (recordEntries store').foldlM (compareOrder store' route (byId orders)) {} =
      .ok facts' ∧
      facts'.nativeFills = facts.nativeFills ∧ facts'.trades = facts.trades ∧
      facts'.suffixes = [] := by
  rw [after.records due]
  refine foldlM_simulates (f := compareOrder store route (byId orders))
    (R := fun f f' : Facts => f'.nativeFills = f.nativeFills ∧ f'.trades = f.trades ∧
      f'.suffixes = [])
    (S := fun other other' => other ∈ recordEntries store ∧
      other' = grow (dueFills store (byId orders) entry) other) ?_ ?_ ⟨rfl, rfl, rfl⟩ loop
  · rintro f f' other _ f₁ same ⟨member, rfl⟩ turn
    exact after.compareAgain due member same turn
  · rw [List.forall₂_map_right_iff, List.forall₂_same]
    exact fun other member => ⟨member, rfl⟩

/-- What the views hold now is in the native fills. -/
theorem Published.seenNative (seen : ∀ v ∈ store.viewKeys,
      (store.view v).seenSourceFills ⊆ facts.nativeFills.keys.toFinset) {w : ViewKey} (known :
      w ∈ store.viewKeys) :
    (store'.view w).seenSourceFills ⊆ facts.nativeFills.keys.toFinset := by
  rw [after.seen known]
  apply Finset.union_subset (seen w known)
  split_ifs
  · intro fillKey member
    obtain ⟨fill, listed, rfl⟩ := List.mem_map.1 (List.mem_toFinset.1 member)
    obtain ⟨native, lacks, rfl⟩ := List.mem_map.1 listed
    rw [List.mem_toFinset, Dict.mem_keys_iff]
    exact ⟨native, due.gathered.mem_native.2 ⟨rfl, entry, due.member, List.mem_of_mem_drop lacks⟩⟩
  · exact Finset.empty_subset _

/-- An intent that was backed still is. -/
theorem Published.stillBacked {w : ViewKey} (known : w ∈ store.viewKeys)
    {held : String × HedgeIntent}
    (backed : Backed (store.view w) facts.nativeFills held) :
    Backed (store'.view w) facts.nativeFills held := by
  refine ⟨backed.1, unrecorded_eq_false.2 ?_⟩
  obtain ⟨fill, record, native, source, seen, named, trade, side, quantity⟩ :=
    unrecorded_eq_false.1 backed.2
  refine ⟨fill, _, native, after.lookup due known source, ?_, named, trade, ?_, quantity⟩
  · rw [after.seen known]
    exact Finset.mem_union_left _ seen
  · rw [side]
    exact (grown_field (fun _ _ => rfl) _ _ _).symm

/-- An intent of the suffix is backed by its own fill. -/
theorem Published.newBacked {held : String × HedgeIntent} {fill : SourceFill} {rounded : ℤ}
    (member : fill ∈ dueFills store (byId orders) entry)
    (opened : Opened digest fill rounded held) :
    Backed (store'.view entry.2.1) facts.nativeFills held := by
  have known := (mem_recordEntries.1 due.member).1
  refine ⟨opened.named, unrecorded_eq_false.2 ?_⟩
  obtain ⟨native, lacks, rfl⟩ := List.mem_map.1 member
  have listed : native ∈ fillsOf (byId orders) entry.1 := List.mem_of_mem_drop lacks
  have cid := (due.gathered.fill due.member listed).1
  have source : (store.view entry.2.1).sourceOrders.get? held.2.sourceClientOrderId =
      some entry.2.2 := by
    rw [opened.source]
    exact (congrArg _ cid).trans (due.gathered.held due.member)
  refine ⟨native, _, ?_, after.lookup due known source, ?_, opened.source, opened.trade, ?_,
    opened.ounces⟩
  · rw [opened.fillKey]
    exact due.gathered.mem_native.2 ⟨rfl, entry, due.member, listed⟩
  · rw [opened.fillKey, after.seen known, if_pos rfl, Finset.mem_union, List.mem_toFinset]
    exact .inr (List.mem_map_of_mem member)
  · rw [opened.side]
    exact (@grown_field _ (·.side) (fun _ _ => rfl) _ _ _).symm

end After

/-- What a view holds beside the obligations the suffix opened. -/
structure Grown (digest : String → String) (store store' : BusinessStore) (v : ViewKey)
    (taken : List (SourceFill × ℤ)) (new : List (String × HedgeIntent)) : Prop where
  opens : Opens digest taken new
  here : (store'.view v).hedgeIntents.entries = (store.view v).hedgeIntents.entries ++ new
  others : ∀ w ∈ store.viewKeys, w ≠ v → (store'.view w).hedgeIntents = (store.view w).hedgeIntents

theorem fillKeys_intentsOf (view : ViewKey → StoreState) (keys : List ViewKey) :
    (intentsOf view keys).map (·.2.fillKey) =
      keys.flatMap fun w => (view w).hedgeIntents.entries.map (·.2.fillKey) := by
  rw [intentsOf, List.map_flatMap]
  apply List.flatMap_congr
  intro w _
  rw [Dict.values, List.map_map, List.map_map]
  rfl

section Grown

variable {digest : String → String} {reason : String} {store store' : BusinessStore}
  {orders : List Order}
  {route : NativeRoute} {facts : Facts} {entry : String × (ViewKey × SourceOrderRecord)}
  {taken : List (SourceFill × ℤ)} {new : List (String × HedgeIntent)}
  (due : DueSuffix store orders route facts entry)
  (after : Published digest reason entry.2.1 (dueFills store (byId orders) entry)
    taken store store')
  (grows : Grown digest store store' entry.2.1 taken new)

include after in
/-- Where no digest meets another, each obligation is one more. -/
theorem Published.counted (fresh : ((store.view entry.2.1).hedgeIntents.keys ++
      intentIds digest (dueFills store (byId orders) entry)).Nodup) :
    OwnerConfig.intentCount (store'.view entry.2.1).hedgeIntents =
      OwnerConfig.intentCount (store.view entry.2.1).hedgeIntents + openedCount taken := by
  rw [← after.took] at fresh
  exact after.view.grows fresh

include after in
theorem Published.opened (counted : OwnerConfig.intentCount (store'.view entry.2.1).hedgeIntents =
      OwnerConfig.intentCount (store.view entry.2.1).hedgeIntents + openedCount taken) :
    ∃ new, Grown digest store store' entry.2.1 taken new := by
  obtain ⟨new, entries, opens⟩ := after.view.intents counted
  refine ⟨new, opens, entries, ?_⟩
  intro w known other
  rw [after.others w known other]
  rfl

include due after grows

/-- The intents, the old and the new, are all backed by fills of their own. -/
theorem Published.recordedAgain : ∃ claimed,
    store'.viewKeys.foldlM (checkRecordedFacts store'.view facts.nativeFills) ∅ = .ok claimed := by
  have known := (mem_recordEntries.1 due.member).1
  refine ⟨_, checkRecordedFacts_eq_ok.2 ⟨?_, ?_, by simp, rfl⟩⟩
  · intro w member held listed
    rw [after.keys] at member
    by_cases here : w = entry.2.1
    · subst here
      rw [grows.here] at listed
      obtain old | opened := List.mem_append.1 listed
      · exact after.stillBacked due member (due.gathered.backed _ member held old)
      · obtain ⟨fill, from', rounded, made⟩ := grows.opens.each held opened
        rw [after.took] at from'
        exact after.newBacked due from' made
    · rw [grows.others w member here] at listed
      exact after.stillBacked due member (due.gathered.backed w member held listed)
  · rw [fillKeys_intentsOf, after.keys]
    have old := due.gathered.unique
    rw [fillKeys_intentsOf] at old
    have extended := @perm_flatMap_extend _ _ store.viewKeys store.viewKeys_nodup entry.2.1 known
      (fun w => (store.view w).hedgeIntents.entries.map (·.2.fillKey))
      (fun w => (store'.view w).hedgeIntents.entries.map (·.2.fillKey)) (new.map (·.2.fillKey))
      (by rw [grows.here, List.map_append])
      (by intro w member other; rw [grows.others w member other])
    rw [extended.nodup_iff, List.nodup_append]
    have sub := grows.opens.keys
    rw [after.took] at sub
    refine ⟨old, due.distinct.sublist sub, ?_⟩
    rintro fillKey there _ listed rfl
    obtain ⟨w, member, there⟩ := List.mem_flatMap.1 there
    obtain ⟨held, kept, rfl⟩ := List.mem_map.1 there
    obtain ⟨fill, from', same⟩ := List.mem_map.1 (sub.subset listed)
    obtain ⟨native, lacks, rfl⟩ := List.mem_map.1 from'
    exact due.gathered.unclaimed due.member lacks member (List.mem_map_of_mem kept) same.symm

end Grown

section Balance

theorem signedFilled_total (d : Dict String SourceOrderRecord) :
    signedFilled d.values = d.total fun record => record.filledOunces * record.side.sign := rfl

theorem Appends.signedFilled {digest : String → String} {reason : String}
    {taken : List (SourceFill × ℤ)}
    {s t : StoreState} (h : Appends digest (some reason) taken s t) :
    SourceProjection.signedFilled t.sourceOrders.values =
      SourceProjection.signedFilled s.sourceOrders.values + signedOunces (fillsOfTaken taken) := by
  induction h with
  | nil => simp [signedOunces, fillsOfTaken]
  | @cons fill rounded rest s t u takes _ _ _ _ ih =>
    obtain ⟨record, found, side, -, orders, -⟩ := takes.record
    rw [ih, orders, signedFilled_total, Dict.total_set_of_get? _ found, signedFilled_total]
    simp only [SourceOrderRecord.take, signedOunces, fillsOfTaken, List.map_cons, List.sum_cons,
      signedFill_eq, side]
    ring

theorem signedHedges_append (intents new : List HedgeIntent) :
    signedHedges (intents ++ new) = signedHedges intents + signedHedges new := by
  simp [signedHedges]

/-- Validation knows the order of every fill a migration took over. -/
theorem legacy_head {cfg : OwnerConfig} {b : Book} (valid : cfg.validate b = .ok ())
    {item : LegacyOrder}
    (member : item ∈ cfg.legacyOrders) {fillKey : String} (listed : fillKey ∈ item.fillKeys) :
    (splitText '|' fillKey).head? = some item.clientOrderId := by
  unfold OwnerConfig.validate OwnerConfig.validateAllocations at valid
  simp only [bind_eq_ok, raiseIf_eq_ok, exists_const] at valid
  obtain ⟨-, -, ids, -, -, -, checkpoint, legacy, -⟩ := valid
  obtain ⟨before, next, turn⟩ := foldlM_turns legacy item member
  unfold OwnerConfig.checkLegacyOrder at turn
  dsimp only at turn
  split at turn
  · cases turn
  · simp only [bind_eq_ok, raiseIf_eq_ok, exists_const, not_or] at turn
    obtain ⟨-, ⟨-, -, heads, -⟩, -⟩ := turn
    by_contra other
    exact heads ⟨fillKey, listed, other⟩

end Balance

section Again

variable {digest : String → String} {reason : String} {store store' : BusinessStore}
  {orders : List Order}
  {route : NativeRoute} {facts facts' : Facts} {entry : String × (ViewKey × SourceOrderRecord)}
  {taken : List (SourceFill × ℤ)} {new : List (String × HedgeIntent)}

theorem keys_allocates {fills : List SourceFill} {items : List Allocation}
    (allocates : List.Forall₂ Allocates fills items) :
    items.map (·.fillKey) = fills.map (·.fillKey) :=
  map_eq_of_forall₂ (allocates.imp fun _ _ made => made.1)

theorem checkMakerTail_legacy {o : MakerStateStore} {cid : String} {seen : List String}
    (h : checkMakerTail o cid seen = .ok ()) :
    ∀ item ∈ o.cfg.legacyOrders, item.clientOrderId ≠ cid := by
  unfold checkMakerTail at h
  rw [bind_unit_eq_ok, raiseIf_eq_ok] at h
  exact fun item member same => h.1 ⟨item, member, same⟩

/-- The part of the keys that a second comparison counts is all of them. -/
theorem Published.prefixAgain (due : DueSuffix store orders route facts entry)
    (after : Published digest reason entry.2.1 (dueFills store (byId orders) entry)
      taken store store')
    {other : String × (ViewKey × SourceOrderRecord)} (member : other ∈ recordEntries store) :
    ((fillsOf (byId orders) other.1).map key).take
        (count store' (grow (dueFills store (byId orders) entry) other)) =
      (fillsOf (byId orders) other.1).map key := by
  have card : count store' (grow (dueFills store (byId orders) entry) other) =
      ((fillsOf (byId orders) other.1).map key).length := by
    unfold count grow
    rw [after.seenAll due member, List.toFinset_card_of_nodup (due.gathered.nodup_keys member)]
  rw [card, List.take_length]

theorem checkPrefix_again {o o' : MakerStateStore} {instruments : Instruments}
    (due : DueSuffix (.owner o instruments) orders route facts entry) (cfg : o'.cfg = o.cfg)
    (heads : ∀ item ∈ o.cfg.legacyOrders, ∀ fillKey ∈ item.fillKeys,
      (splitText '|' fillKey).head? = some item.clientOrderId) {items : List Allocation}
    (allocates : List.Forall₂ Allocates (dueFills (.owner o instruments) (byId orders) entry) items)
    (allocations : o'.book.allocations = o.book.allocations ++ items)
    {other : String × (ViewKey × SourceOrderRecord)}
    (member : other ∈ recordEntries (.owner o instruments))
    (h : checkPrefix o (other.1, ((fillsOf (byId orders) other.1).map key).take
      (count (.owner o instruments) other)) = .ok ()) :
    checkPrefix o' (other.1, (fillsOf (byId orders) other.1).map key) = .ok () := by
  have whole :=
    List.take_append_drop (count (.owner o instruments) other)
    ((fillsOf (byId orders) other.1).map key)
  have later := keys_dueFills (.owner o instruments) (byId orders) entry
  simp only [checkPrefix, raiseIf_eq_ok, not_not] at h ⊢
  rw [allocations, cfg, List.map_append, List.filter_append, keys_allocates allocates, h, ← whole,
    List.filter_append, whole]
  congr 1
  by_cases same : other = entry
  · subst same
    rw [← later, List.filter_eq_self.2, List.filter_eq_self.2]
    · intro fillKey listed
      rw [decide_eq_true_eq, checkpointKeys, List.mem_flatMap]
      rintro ⟨item, legacy, taken⟩
      apply checkMakerTail_legacy due.tail item legacy
      have head := heads item legacy fillKey taken
      rw [due.head listed] at head
      exact (Option.some.inj head).symm
    · exact fun fillKey listed => decide_eq_true (due.head listed)
  · have none' := due.others other member same
    rw [← List.map_drop, ← lacking, none', List.map_nil, List.filter_nil, List.filter_eq_nil_iff]
    intro fillKey listed head
    have head := of_decide_eq_true head
    rw [due.head listed] at head
    exact same (due.gathered.sole due.member member (Option.some.inj head).symm)

theorem checkAllocation_due {native : Dict String OrderFilled}
    (due : DueSuffix store orders route facts entry)
    (same : native = facts.nativeFills) {fill : SourceFill}
    (member : fill ∈ dueFills store (byId orders) entry)
    {item : Allocation} (allocates : Allocates fill item) :
    checkAllocation native item = .ok () := by
  obtain ⟨filled, lacks, rfl⟩ := List.mem_map.1 member
  have listed : filled ∈ fillsOf (byId orders) entry.1 := List.mem_of_mem_drop lacks
  have found : native.get? item.fillKey = some filled := by
    rw [same, allocates.1]
    exact due.gathered.mem_native.2 ⟨rfl, entry, due.member, listed⟩
  have side := (due.gathered.fill due.member listed).2.1
  unfold checkAllocation
  rw [found, allocates.2]
  simp only [raiseIf_eq_ok, not_not, SourceFill.signedFill, business, side]
  cases entry.2.2.side <;> simp [BusinessOrderSide.native]

/-- The balance that was recorded agrees with the native fills still. -/
theorem Published.balanceAgain (due : DueSuffix store orders route facts entry)
    (after : Published digest reason entry.2.1 (dueFills store (byId orders) entry)
      taken store store')
    (grows : Grown digest store store' entry.2.1 taken new)
    (owner : store.checkOwner (·.sourceInstrumentId) route.instrumentId
      "source projection Maker instrument differs" = .ok ())
    (balance : checkBalance store facts = .ok ()) (native : facts'.nativeFills = facts.nativeFills)
    (prefixes : facts'.prefixes = (recordEntries store').map fun other =>
      (other.1, ((fillsOf (byId orders) other.1).map key).take (count store' other))) :
    checkBalance store' facts' = .ok () := by
  have balanced := after.balanced
  cases store with
  | standalone s =>
    cases store' with
    | owner => exact balanced.elim
    | standalone s' =>
      have filled := after.view.signedFilled
      have hedged : s'.memory.hedgeIntents.values =
          s.memory.hedgeIntents.values ++ new.map Prod.snd := by
        rw [Dict.values, Dict.values, ← List.map_append]
        exact congrArg _ grows.here
      have opened := grows.opens.signed
      unfold checkBalance at balance ⊢
      rw [raiseIf_eq_ok, not_not] at balance ⊢
      change s'.memory.netUnhedgedOunces =
        s.memory.netUnhedgedOunces + _ - allocated taken at balanced
      change s.memory.netUnhedgedOunces = _ at balance
      change s'.memory.netUnhedgedOunces = _
      change signedFilled s'.memory.sourceOrders.values =
        signedFilled s.memory.sourceOrders.values + _ at filled
      rw [after.took] at filled
      rw [balanced, balance, filled, hedged, signedHedges_append, opened, allocated]
      ring
  | owner o instruments =>
    cases store' with
    | standalone => exact balanced.elim
    | owner o' instruments' =>
      obtain ⟨-, cfg, items, allocates, -, allocations⟩ := balanced
      simp only [BusinessStore.checkOwner, bind_eq_ok, raiseIf_eq_ok, exists_const] at owner
      have heads : ∀ item ∈ o.cfg.legacyOrders, ∀ fillKey ∈ item.fillKeys,
          (splitText '|' fillKey).head? = some item.clientOrderId :=
        fun item member fillKey listed => legacy_head owner.2 member listed
      unfold checkBalance at balance ⊢
      rw [bind_unit_eq_ok, forM_eq_ok, forM_eq_ok] at balance ⊢
      obtain ⟨before, amounts⟩ := balance
      constructor
      · rw [prefixes, after.records due]
        intro item listed
        obtain ⟨_, there, rfl⟩ := List.mem_map.1 listed
        obtain ⟨other, member, rfl⟩ := List.mem_map.1 there
        have turn := before _ (by
          rw [due.gathered.prefixes]
          exact List.mem_map_of_mem member)
        have again := checkPrefix_again due cfg heads allocates allocations member turn
        rw [← after.prefixAgain due member] at again
        exact again
      · rw [allocations]
        intro item listed
        obtain old | listed := List.mem_append.1 listed
        · rw [native]
          exact amounts item old
        · obtain ⟨fill, member, made⟩ := forall₂_right allocates listed
          exact checkAllocation_due due native member made

end Again

/-- Where each obligation is one more, a second walk finds every fill seen. -/
theorem gatherAgain {digest : String → String} {reason : String} {store store' : BusinessStore}
    {orders : List Order} {route : NativeRoute} {facts : Facts}
    {entry : String × (ViewKey × SourceOrderRecord)}
    {taken : List (SourceFill × ℤ)} (gathers : gather store orders route = .ok facts)
    (due : DueSuffix store orders route facts entry)
    (after : Published digest reason entry.2.1 (dueFills store (byId orders) entry)
      taken store store')
    (grows : OwnerConfig.intentCount (store'.view entry.2.1).hedgeIntents =
      OwnerConfig.intentCount (store.view entry.2.1).hedgeIntents + openedCount taken) :
    ∃ facts', gather store' orders route = .ok facts' ∧ facts'.suffixes = [] := by
  obtain ⟨owner, identities, ⟨whole, unique, sets⟩, loop, seen, -, balance⟩ :=
    gather_eq_ok.1 gathers
  rw [records_entries whole] at loop
  obtain ⟨facts', loop', native, -, none'⟩ := after.gatherLoop due loop
  obtain ⟨new, grows⟩ := after.opened grows
  have cids : (recordEntries store').map Prod.fst = (recordEntries store).map Prod.fst := by
    rw [after.records due, List.map_map]
    rfl
  have entries : (records store').entries = recordEntries store' := by
    apply Dict.entries_ofList_of_nodup
    rw [cids]
    exact due.gathered.distinct
  have prefixes := (compareOrders_eq_ok loop').2.2.2
  refine ⟨facts', gather_eq_ok.2 ⟨after.owner _ _ _ owner, ?_, ⟨?_, unique, ?_⟩, ?_, ?_, ?_, ?_⟩,
    none'⟩
  · intro w known
    rw [after.keys] at known
    obtain ⟨named, active⟩ := checkIdentities_eq_ok.1 (identities w known)
    rw [checkIdentities_eq_ok, after.grownOrders due known, after.active known]
    constructor
    · intro e listed
      obtain ⟨e', member, rfl⟩ := List.mem_map.1 listed
      rw [grown_cid]
      exact named e' member
    · intro cid current
      obtain ⟨record, found⟩ := Option.ne_none_iff_exists'.1 (active cid current)
      rw [after.lookup due known found]
      exact Option.some_ne_none _
  · rw [entries]
  · rw [← sets, Dict.keys, Dict.keys, entries, cids, records_entries whole]
  · rw [entries]
    exact loop'
  · intro w known
    rw [after.keys] at known
    rw [native]
    exact after.seenNative due seen known
  · rw [native]
    exact after.recordedAgain due grows
  · exact after.balanceAgain due grows owner balance native (by simpa using prefixes)

/-- Every source order's fills are seen, and its record is filled as far as they go. -/
structure CaughtUp (store : BusinessStore) (orders : Dict String Order) : Prop where
  seen : ∀ v ∈ store.viewKeys, ∀ record ∈ (store.view v).sourceOrders.values,
    seenOf (store.view v) record.clientOrderId =
    ((fillsOf orders record.clientOrderId).map key).toFinset
  filled : ∀ v ∈ store.viewKeys, ∀ record ∈ (store.view v).sourceOrders.values,
    record.filledOunces = totalQty (fillsOf orders record.clientOrderId)

theorem Published.caughtUp {digest : String → String} {reason : String}
    {store store' : BusinessStore}
    {orders : List Order} {route : NativeRoute} {facts : Facts}
    {entry : String × (ViewKey × SourceOrderRecord)}
    {taken : List (SourceFill × ℤ)} (due : DueSuffix store orders route facts entry)
    (after : Published digest reason entry.2.1 (dueFills store (byId orders) entry)
      taken store store') :
    CaughtUp store' (byId orders) := by
  have each : ∀ v ∈ store'.viewKeys, ∀ record ∈ (store'.view v).sourceOrders.values,
      ∃ other ∈ recordEntries store, grow (dueFills store (byId orders) entry) other =
        (record.clientOrderId, v, record) := by
    intro v known record listed
    have member : (record.clientOrderId, v, record) ∈ recordEntries store' :=
      mem_recordEntries.2 ⟨known, rfl, listed⟩
    rw [after.records due] at member
    exact List.mem_map.1 member
  constructor
  · intro v known record listed
    obtain ⟨other, member, same⟩ := each v known record listed
    have seen := after.seenAll due member
    rwa [show other.1 = record.clientOrderId from congrArg (·.1) same,
      show other.2.1 = v from congrArg (·.2.1) same] at seen
  · intro v known record listed
    obtain ⟨other, member, same⟩ := each v known record listed
    have filled := after.filledAll due member
    rwa [show grown _ other.1 other.2.2 = record from congrArg (·.2.2) same,
      show other.1 = record.clientOrderId from congrArg (·.1) same] at filled

/-- The digests of the keys that are due meet neither each other nor an intent of their view. -/
def DigestsApart (digest : String → String) (store : BusinessStore) (orders : List Order)
    (route : NativeRoute) (reason : String) : Prop :=
  ∀ v suffix, dueSuffix store orders route reason = .ok (some (v, suffix)) →
    ((store.view v).hedgeIntents.keys ++ intentIds digest suffix).Nodup

theorem projectSourceFills_rest {digest : String → String} {o changed : MakerStateStore}
    {v : ViewKey}
    {reason : String} {fills : List SourceFill}
    (h : o.projectSourceFills digest v reason fills = .ok changed) :
    changed.cfg = o.cfg ∧ changed.committed = o.committed ∧
      changed.freezePublicationFailed = o.freezePublicationFailed := by
  unfold MakerStateStore.projectSourceFills at h
  refine foldlM_invariant (P := fun u : MakerStateStore => u.cfg = o.cfg ∧
    u.committed = o.committed ∧ u.freezePublicationFailed = o.freezePublicationFailed)
    (s := o.holdViews reason) (fun u fill u' kept turn => ?_) ⟨rfl, rfl, rfl⟩ h
  obtain ⟨⟨filled, opened⟩, applied, rfl⟩ := map_eq_ok.1 turn
  obtain ⟨b, rfl⟩ := MakerStateStore.applySourceFill_rebooked applied
  exact kept

theorem publish_eq_error {digest : String → String} {store store' : BusinessStore} {reason : String}
    {v : ViewKey}
    {suffix : List SourceFill} {pub : Publication} {e : Raised}
    (h : publish digest store reason v suffix pub = (.error e, store'))
    (other : e ≠ .parentDirectorySyncError) :
    store' = store := by
  cases store with
  | standalone store =>
    unfold publish at h
    dsimp only at h
    obtain ⟨result, rfl⟩ := Prod.mk.inj h
    congr 1
    unfold StoreState.projectSourceFills at result ⊢
    split at result
    · rfl
    · cases pub with
      | published => cases result
      | failed => rfl
      | parentSyncFailed => exact absurd (Except.error.inj result).symm other
  | owner o instruments =>
    unfold publish at h
    dsimp only at h
    obtain ⟨result, rfl⟩ := Prod.mk.inj h
    congr 1
    exact transact_error (fun _ => projectSourceFills_rest) (Prod.ext result rfl) other

theorem projectSourceFills_eq_ok {digest : String → String} {store store' : BusinessStore}
    {orders : List Order}
    {route : NativeRoute} {reason : String} {pub : Publication} {n : ℕ}
    (h : projectSourceFills digest store orders route reason pub = (.ok n, store'))
    (some' : n ≠ 0) :
    ∃ v suffix, dueSuffix store orders route reason = .ok (some (v, suffix)) ∧ n = suffix.length ∧
      publish digest store reason v suffix pub = (.ok (), store') := by
  unfold projectSourceFills at h
  split at h
  · cases h
  · cases h
    exact absurd rfl some'
  · rename_i v suffix found
    cases outcome : publish digest store reason v suffix pub with
    | mk result after =>
      rw [outcome] at h
      cases result with
      | error e => cases h
      | ok u =>
        cases h
        exact ⟨v, suffix, found, rfl, outcome⟩

/-- Projected again, a suffix is no longer due. -/
theorem DueSuffix.again {digest : String → String} {reason : String} {store store' : BusinessStore}
    {orders : List Order} {route : NativeRoute} {facts : Facts}
    {entry : String × (ViewKey × SourceOrderRecord)}
    {taken : List (SourceFill × ℤ)} (due : DueSuffix store orders route facts entry)
    (named : reason ≠ "") (gathers : gather store orders route = .ok facts)
    (after : Published digest reason entry.2.1 (dueFills store (byId orders) entry)
      taken store store')
    (grows : OwnerConfig.intentCount (store'.view entry.2.1).hedgeIntents =
      OwnerConfig.intentCount (store.view entry.2.1).hedgeIntents + openedCount taken)
    (again : Publication) :
    projectSourceFills digest store' orders route reason again = (.ok 0, store') := by
  obtain ⟨facts', gathers', none'⟩ := gatherAgain gathers due after grows
  have nothing : dueSuffix store' orders route reason = .ok none := by
    unfold dueSuffix
    rw [bind_unit_eq_ok]
    refine ⟨raiseIf_eq_ok.2 named, ?_⟩
    rw [bind_eq_ok]
    exact ⟨facts', gathers', by rw [none']; rfl⟩
  unfold projectSourceFills
  rw [nothing]

/-- A projection that is not published leaves the store as it was. -/
theorem projectSourceFills_eq_error {digest : String → String} {store store' : BusinessStore}
    {orders : List Order} {route : NativeRoute} {reason : String} {pub : Publication} {e : Raised}
    (h : projectSourceFills digest store orders route reason pub = (.error e, store'))
    (other : e ≠ .parentDirectorySyncError) : store' = store := by
  unfold projectSourceFills at h
  split at h
  · cases h
    rfl
  · cases h
  · rename_i v suffix found
    cases outcome : publish digest store reason v suffix pub with
    | mk result after =>
      rw [outcome] at h
      cases result with
      | error raised =>
        cases h
        exact publish_eq_error outcome other
      | ok u => cases h

/-- A projected suffix catches every source order up, a second projection changes nothing, and one
that is not published leaves the store as it was. -/
theorem projectSourceFills_catchesUp (digest : String → String) (store : BusinessStore)
    (orders : List Order)
    (route : NativeRoute) (reason : String) (pub : Publication) :
    (∀ n store', projectSourceFills digest store orders route reason pub = (.ok n, store') → n ≠ 0 →
      CaughtUp store' (byId orders) ∧ (DigestsApart digest store orders route reason →
        ∀ again, projectSourceFills digest store' orders route reason again = (.ok 0, store'))) ∧
    ∀ e store', projectSourceFills digest store orders route reason pub = (.error e, store') →
      e ≠ .parentDirectorySyncError → store' = store := by
  constructor
  · intro n store' h some'
    obtain ⟨v, suffix, found, -, published⟩ := projectSourceFills_eq_ok h some'
    obtain ⟨named, facts, entry, gathers, due, rfl, rfl⟩ := dueSuffix_eq_ok found
    obtain ⟨taken, after⟩ := due.published published
    refine ⟨after.caughtUp due, fun apart again => ?_⟩
    exact due.again named gathers after (after.counted (apart _ _ found)) again
  · exact fun e store' h other => projectSourceFills_eq_error h other

/-- A shared owner that has seen the first of three trades of a Maker order, after a Taker order
that filled. -/
def firstTrade : BusinessStore :=
  .owner (MakerStateStore.run id ⟨sharedConfig, .empty, .empty, false⟩ [
    (.taker, .beginSource (sharedRequest "O-1")),
    (.bid, .beginSource (sharedRequest "O-2")),
    (.taker, .reserveSourceFill ⟨"O-1|V-1|T-1", "O-1", "T-1", .buy, 3 / 4⟩),
    (.bid, .reserveSourceFill ⟨"O-2|V-2|T-2", "O-2", "T-2", .buy, 1 / 2⟩)]) ⟨"XAUT", "XAU"⟩

/-- A native order of three ounces, with its trades. -/
def tradedOrder (strategyId cid venueOrderId : String) (trades : List (String × ℚ)) : Order :=
  let owner : EventOwner := ⟨"TRADER", strategyId, "XAUT", cid⟩
  { traderId := "TRADER", strategyId := strategyId, instrumentId := "XAUT", clientOrderId := cid,
    venueOrderId := some venueOrderId, positionId := none, accountId := some "SOURCE-1",
    side := .buy, orderType := .limit, timeInForce := .gtc, isQuoteQuantity := false,
    isReduceOnly := false, quantity := 3, filledQty := (trades.map (·.2)).sum, status :=
      .partiallyFilled,
    isClosed := false, tradeIds := trades.map (·.1),
    events := .initialized ⟨owner, .buy, .limit, .gtc, 3, false, false⟩ :: trades.map fun trade =>
      .filled ⟨owner, "SOURCE-1", venueOrderId, trade.1, none, .buy, .limit, trade.2⟩ }

def threeTrades : List Order := [tradedOrder "TAKER-1" "O-1" "V-1" [("T-1", 3 / 4)],
  tradedOrder "MAKER-1" "O-2" "V-2" [("T-2", 1 / 2), ("T-3", 1), ("T-4", 3 / 4)]]

def threeTradesRoute : NativeRoute := ⟨"XAUT", "TRADER", "MAKER-1"⟩

def lateTrades : List SourceFill := [⟨"O-2|V-2|T-3", "O-2", "T-3", .buy, 1⟩,
  ⟨"O-2|V-2|T-4", "O-2", "T-4", .buy, 3 / 4⟩]

theorem dueSuffix_threeTrades : dueSuffix firstTrade threeTrades threeTradesRoute "RECOVERY" =
    .ok (some (.bid, lateTrades)) := by
  decide +kernel

theorem projectSourceFills_catchesUp_threeTrades : ∃ store',
    projectSourceFills id firstTrade threeTrades threeTradesRoute "RECOVERY" .published =
    (.ok 2, store') ∧
      CaughtUp store' (byId threeTrades) ∧
      projectSourceFills id store' threeTrades threeTradesRoute "RECOVERY" .failed =
      (.ok 0, store') := by
  let result := projectSourceFills id firstTrade threeTrades threeTradesRoute "RECOVERY" .published
  have adds : result.1 = .ok 2 := by decide +kernel
  have same : result = (.ok 2, result.2) := Prod.ext adds rfl
  have apart : DigestsApart id firstTrade threeTrades threeTradesRoute "RECOVERY" := by
    intro v suffix found
    cases dueSuffix_threeTrades.symm.trans found
    decide +kernel
  obtain ⟨caught, again⟩ :=
    (projectSourceFills_catchesUp id firstTrade threeTrades threeTradesRoute "RECOVERY"
      .published).1 2
      result.2 same (by decide)
  exact ⟨result.2, same, caught, again apart .failed⟩

end ArbNautilus.Store.SourceProjection
