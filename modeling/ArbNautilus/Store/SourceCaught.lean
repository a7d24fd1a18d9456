import ArbNautilus.Store.SourceApplied

/-! A projected suffix leaves no order behind, and projecting again finds nothing. -/

namespace ArbNautilus.Store.SourceProjection

open Base Native HedgeProjection

/-- How the balance of a store took the fills. -/
def Balanced (fills : List SourceFill) (taken : List (SourceFill × ℤ)) :
    BusinessStore → BusinessStore → Prop
  | .standalone s, .standalone s' =>
    s'.memory.netUnhedgedOunces = s.memory.netUnhedgedOunces + signedOunces fills - allocated taken
  | .owner o instruments, .owner o' instruments' => instruments' = instruments ∧ o'.cfg = o.cfg ∧
    ∃ items, List.Forall₂ Allocates fills items ∧
      OwnerConfig.owningCount items = openedCount taken ∧
      o'.book.allocations = o.book.allocations ++ items
  | _, _ => False

/-- What a published suffix leaves. -/
structure Published (digest : String → String) (reason : String) (v : ViewKey)
    (fills : List SourceFill)
    (taken : List (SourceFill × ℤ)) (store store' : BusinessStore) : Prop where
  keys : store'.viewKeys = store.viewKeys
  strategy : store'.strategyId = store.strategyId
  took : fillsOfTaken taken = fills
  view : Appends digest (some reason) taken ((store.view v).hold reason) (store'.view v)
  others : ∀ w ∈ store.viewKeys, w ≠ v → store'.view w = (store.view w).hold reason
  owner : ∀ bound instrumentId message, store.checkOwner bound instrumentId message = .ok () →
    store'.checkOwner bound instrumentId message = .ok ()
  balanced : Balanced fills taken store store'

theorem view_holdViews {o : MakerStateStore} {w : ViewKey} (known : w ∈ o.cfg.viewKeys)
    (reason : String) : (o.holdViews reason).view w = (o.view w).hold reason := by
  simp [MakerStateStore.holdViews, MakerStateStore.view, MakerStateStore.setBook, known]

theorem publish_eq_ok {digest : String → String} {store store' : BusinessStore} {reason : String}
    {v : ViewKey}
    {fills : List SourceFill} {pub : Publication} (known : v ∈ store.viewKeys)
    (unseen : ∀ fill ∈ fills, fill.fillKey ∉ (store.view v).seenSourceFills)
    (distinct : (fills.map (·.fillKey)).Nodup)
    (orders : ∀ fill ∈ fills, (store.view v).sourceOrders.get? fill.clientOrderId ≠ none)
    (h : publish digest store reason v fills pub = (.ok (), store')) :
    ∃ taken, Published digest reason v fills taken store store' := by
  cases store with
  | standalone store =>
    obtain rfl : v = .taker := List.mem_singleton.1 known
    unfold publish at h
    dsimp only at h
    obtain ⟨result, rfl⟩ := Prod.mk.inj h
    unfold StoreState.projectSourceFills at result ⊢
    split at result
    · cases result
    · rename_i t folded
      cases pub with
      | published =>
        obtain ⟨taken, same, appends, net⟩ :=
          @foldFills_takes digest reason fills (store.memory.hold reason) t unseen distinct orders
            folded
        refine ⟨taken, rfl, rfl, same, appends, ?_, fun _ _ _ checked => checked, net⟩
        intro w member other
        exact absurd (List.mem_singleton.1 member) other
      | failed | parentSyncFailed => cases result
  | owner o instruments =>
    unfold publish at h
    dsimp only at h
    obtain ⟨result, rfl⟩ := Prod.mk.inj h
    obtain ⟨changed, projected, persisted⟩ := transact_eq_ok (Prod.ext result rfl)
    have here := view_holdViews known reason
    obtain ⟨taken, items, same, appends, allocates, owning, allocations, cfg, others⟩ :=
      @foldOwner_takes digest reason fills (o.holdViews reason) changed v
        (by rw [here]; exact unseen) distinct
        (by rw [here]; exact orders) projected
    obtain ⟨views, cfg', allocations', valid⟩ := persist_eq_ok persisted
    have whole : (o.transact pub (o.projectSourceFills digest v reason fills)).2.cfg = o.cfg :=
      cfg'.trans cfg
    refine ⟨taken, ?_, ?_, same, ?_, ?_, ?_, ?_⟩
    · show OwnerConfig.viewKeys _ = OwnerConfig.viewKeys _
      rw [whole]
    · funext given w
      simp only [BusinessStore.strategyId, whole]
    · show Appends digest (some reason) taken ((o.view v).hold reason) _
      rw [← here]
      simp only [BusinessStore.view, views]
      exact appends
    · intro w member other
      simp only [BusinessStore.view, views]
      rw [others w other]
      exact view_holdViews member reason
    · intro bound id message checked
      simp only [BusinessStore.checkOwner, bind_eq_ok, raiseIf_eq_ok, exists_const] at checked ⊢
      exact ⟨checked.1, valid⟩
    · exact ⟨rfl, whole, items, allocates, owning, allocations'.trans allocations⟩

/-- The fills of an order that were due, as its view takes them. -/
def dueFills (store : BusinessStore) (orders : Dict String Order)
    (entry : String × (ViewKey × SourceOrderRecord)) : List SourceFill :=
  (lacking store orders entry).map (business entry.2.2.side)

section Due

variable {store : BusinessStore} {orders : List Order} {route : NativeRoute} {facts : Facts}
  {entry : String × (ViewKey × SourceOrderRecord)}

theorem keys_dueFills (store : BusinessStore) (orders : Dict String Order)
    (entry : String × (ViewKey × SourceOrderRecord)) :
    (dueFills store orders entry).map (·.fillKey) =
      ((fillsOf orders entry.1).map key).drop (count store entry) := by
  rw [dueFills, List.map_map, ← List.map_drop]
  rfl

theorem ounces_dueFills (store : BusinessStore) (orders : Dict String Order)
    (entry : String × (ViewKey × SourceOrderRecord)) :
    ounces (dueFills store orders entry) = totalQty (lacking store orders entry) := by
  rw [ounces, dueFills, List.map_map]
  rfl

variable (due : DueSuffix store orders route facts entry)

include due

theorem DueSuffix.own :
    ∀ fill ∈ dueFills store (byId orders) entry, fill.clientOrderId = entry.1 := by
  intro fill member
  obtain ⟨native, lacks, rfl⟩ := List.mem_map.1 member
  exact (due.gathered.fill due.member (List.mem_of_mem_drop lacks)).1

theorem DueSuffix.unseen : ∀ fill ∈ dueFills store (byId orders) entry,
    fill.fillKey ∉ (store.view entry.2.1).seenSourceFills := by
  intro fill member
  obtain ⟨native, lacks, rfl⟩ := List.mem_map.1 member
  exact due.gathered.unseen due.member lacks

theorem DueSuffix.distinct : ((dueFills store (byId orders) entry).map (·.fillKey)).Nodup := by
  rw [keys_dueFills]
  exact (due.gathered.nodup_keys due.member).sublist (List.drop_sublist _ _)

theorem DueSuffix.known : ∀ fill ∈ dueFills store (byId orders) entry,
    (store.view entry.2.1).sourceOrders.get? fill.clientOrderId ≠ none := by
  intro fill member
  rw [due.own fill member, due.gathered.held due.member]
  exact Option.some_ne_none _

theorem DueSuffix.published {digest : String → String} {store' : BusinessStore} {reason : String}
    {pub : Publication}
    (h : publish digest store reason entry.2.1 (dueFills store (byId orders) entry) pub =
      (.ok (), store')) :
    ∃ taken, Published digest reason entry.2.1 (dueFills store (byId orders) entry) taken store
      store' :=
  publish_eq_ok (mem_recordEntries.1 due.member).1 due.unseen due.distinct due.known h

theorem DueSuffix.head {fillKey : String}
    (member : fillKey ∈ (dueFills store (byId orders) entry).map (·.fillKey)) :
    (splitText '|' fillKey).head? = some entry.1 := by
  obtain ⟨fill, listed, rfl⟩ := List.mem_map.1 member
  obtain ⟨native, lacks, rfl⟩ := List.mem_map.1 listed
  exact due.gathered.head_key due.member (List.mem_of_mem_drop lacks)

end Due

section After

variable {digest : String → String} {reason : String} {store store' : BusinessStore}
  {orders : List Order}
  {route : NativeRoute} {facts : Facts} {entry : String × (ViewKey × SourceOrderRecord)}
  {taken : List (SourceFill × ℤ)} (due : DueSuffix store orders route facts entry)
  (after : Published digest reason entry.2.1 (dueFills store (byId orders) entry)
    taken store store')

/-- An order's record after the suffix. -/
def grow (fills : List SourceFill) (entry : String × (ViewKey × SourceOrderRecord)) :
    String × (ViewKey × SourceOrderRecord) :=
  (entry.1, entry.2.1, grown fills entry.1 entry.2.2)

theorem grown_cid (fills : List SourceFill) (cid : String) (record : SourceOrderRecord) :
    (grown fills cid record).clientOrderId = record.clientOrderId :=
  grown_field (fun _ _ => rfl) fills cid record

include after in
theorem Published.seen {w : ViewKey} (known : w ∈ store.viewKeys) :
    (store'.view w).seenSourceFills = (store.view w).seenSourceFills ∪
      if w = entry.2.1 then ((dueFills store (byId orders) entry).map (·.fillKey)).toFinset
        else ∅ := by
  by_cases here : w = entry.2.1
  · subst here
    rw [if_pos rfl, after.view.seen, after.took]
    rfl
  · rw [if_neg here, after.others w known here, Finset.union_empty]
    rfl

include after in
theorem Published.active {w : ViewKey} (known : w ∈ store.viewKeys) :
    (store'.view w).activeSourceOrderId = (store.view w).activeSourceOrderId := by
  by_cases here : w = entry.2.1
  · subst here
    exact after.view.same.1
  · rw [after.others w known here]
    rfl

include due after

theorem Published.grownOrders {w : ViewKey} (known : w ∈ store.viewKeys) :
    (store'.view w).sourceOrders.entries = (store.view w).sourceOrders.entries.map fun e =>
      (e.1, grown (dueFills store (byId orders) entry) e.1 e.2) := by
  by_cases here : w = entry.2.1
  · subst here
    rw [after.view.orders, after.took]
    rfl
  · rw [after.others w known here]
    have others : ∀ e ∈ (store.view w).sourceOrders.entries,
        (e.1, grown (dueFills store (byId orders) entry) e.1 e.2) = id e := by
      intro e member
      have apart : entry.1 ≠ e.1 := by
        intro same
        have listed := due.gathered.listed known ((Dict.mem_entries_iff _ _ _).1 member)
        exact here (congrArg (·.2.1) (due.gathered.sole due.member listed same.symm))
      rw [grown_other]
      · rfl
      · intro fill member'
        rw [due.own fill member']
        exact apart
    rw [List.map_congr_left others, List.map_id]
    rfl

theorem Published.lookup {w : ViewKey} (known : w ∈ store.viewKeys) {cid : String}
    {record : SourceOrderRecord}
    (found : (store.view w).sourceOrders.get? cid = some record) :
    (store'.view w).sourceOrders.get? cid =
    some (grown (dueFills store (byId orders) entry) cid record) := by
  rw [← Dict.mem_entries_iff, after.grownOrders due known]
  exact List.mem_map.2 ⟨(cid, record), (Dict.mem_entries_iff _ _ _).2 found, rfl⟩

theorem Published.records : recordEntries store' =
    (recordEntries store).map (grow (dueFills store (byId orders) entry)) := by
  unfold recordEntries
  rw [after.keys, List.map_flatMap]
  apply List.flatMap_congr
  intro w known
  rw [Dict.values, after.grownOrders due known, List.map_map, List.map_map, List.map_map,
    Dict.values, List.map_map]
  apply List.map_congr_left
  intro e member
  simp only [Function.comp_apply, grow, grown_cid, ← (due.gathered.named w known e member).2]

/-- Every fill of every order is seen. -/
theorem Published.seenAll {other : String × (ViewKey × SourceOrderRecord)}
    (member : other ∈ recordEntries store) :
    seenOf (store'.view other.2.1) other.1 =
      ((fillsOf (byId orders) other.1).map key).toFinset := by
  have known := (mem_recordEntries.1 member).1
  have before := (due.gathered.compared other member).seen
  have split : ((fillsOf (byId orders) other.1).map key).toFinset =
      (((fillsOf (byId orders) other.1).map key).take (count store other)).toFinset ∪
        (((fillsOf (byId orders) other.1).map key).drop (count store other)).toFinset := by
    rw [← List.toFinset_append, List.take_append_drop]
  rw [split, ← before, seenOf, after.seen known, Finset.filter_union]
  congr 1
  by_cases same : other = entry
  · subst same
    rw [if_pos rfl, keys_dueFills, Finset.filter_true_of_mem]
    intro fillKey listed
    rw [← keys_dueFills, List.mem_toFinset] at listed
    exact due.head listed
  · have none' := due.others other member same
    rw [← List.map_drop, ← lacking, none', List.map_nil, List.toFinset_nil]
    split_ifs
    · apply Finset.filter_false_of_mem
      intro fillKey listed head
      rw [due.head (List.mem_toFinset.1 listed)] at head
      exact same (due.gathered.sole due.member member (Option.some.inj head).symm)
    · rfl

/-- Every order is filled as far as its native fills go. -/
theorem Published.filledAll {other : String × (ViewKey × SourceOrderRecord)}
    (member : other ∈ recordEntries store) :
    (grown (dueFills store (byId orders) entry) other.1 other.2.2).filledOunces =
      totalQty (fillsOf (byId orders) other.1) := by
  have before := (due.gathered.compared other member).filled
  rw [← totalQty_take_drop (fillsOf (byId orders) other.1) (count store other), before]
  by_cases same : other = entry
  · subst same
    rw [grown_filled due.own, ounces_dueFills]
    rfl
  · have apart : other.1 ≠ entry.1 := fun equal => same (due.gathered.sole due.member member equal)
    rw [grown_other]
    · rw [← lacking, due.others other member same, totalQty_nil, add_zero]
    · intro fill listed
      rw [due.own fill listed]
      exact Ne.symm apart

end After

end ArbNautilus.Store.SourceProjection
