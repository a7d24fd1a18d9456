import ArbNautilus.Store.HedgeReplay

namespace ArbNautilus.Store.HedgeProjection

open Base Native

/-- What a projection that adds fills leaves of a store. -/
structure Caught (store store' : BusinessStore) (orders : Dict String Order)
    (reason : String) : Prop where
  keys : store'.viewKeys = store.viewKeys
  /-- An order belongs to one obligation, and its fills have keys of their own. -/
  single : ∀ v i v' i', (v, i) ∈ intentsOf store'.view store'.viewKeys →
    (v', i') ∈ intentsOf store'.view store'.viewKeys → ∀ cid ∈ boundOrders i,
    cid ∈ boundOrders i' → v = v' ∧ i = i'
  distinct : ∀ v i, (v, i) ∈ intentsOf store'.view store'.viewKeys →
    (boundOrders i).Nodup ∧ ∀ cid ∈ boundOrders i, ((fillsOf orders cid).map key).Nodup
  seen : ∀ v ∈ store'.viewKeys, ∀ k, k ∈ (store'.view v).seenHedgeFills ↔
    ∃ i, (v, i) ∈ intentsOf store'.view store'.viewKeys ∧
      ∃ cid ∈ boundOrders i, ∃ fill ∈ fillsOf orders cid, key fill = k
  filled : ∀ v i, (v, i) ∈ intentsOf store'.view store'.viewKeys → i.hedgeFilledOunces =
    ((boundOrders i).map fun cid => totalQty (fillsOf orders cid)).sum
  legFilled : ∀ v i, (v, i) ∈ intentsOf store'.view store'.viewKeys → i.hedgePlan ≠ [] →
    ∀ cid ∈ i.hedgeClientOrderId, i.hedgeLegFilledOunces = totalQty (fillsOf orders cid)
  /-- Each intent keeps all but its progress, and one that was touched is BLOCKED. -/
  intents : ∀ v ∈ store.viewKeys, ∀ id i, (store.view v).hedgeIntents.get? id = some i →
    ∃ j, (store'.view v).hedgeIntents.get? id = some j ∧ frame j = frame i ∧
      j.hedgeLegIndex = i.hedgeLegIndex ∧ (j = i ∨ j.status = .blocked)
  halts : ∀ v ∈ store.viewKeys,
    (store'.view v).haltReason = some ((store.view v).haltReason.getD reason) ∧
    (store'.view v).sourceFreezeReason = some ((store.view v).sourceFreezeReason.getD reason)
  others : ∀ v ∈ store.viewKeys, (store'.view v).sourceOrders = (store.view v).sourceOrders ∧
    (store'.view v).activeSourceOrderId = (store.view v).activeSourceOrderId ∧
    (store'.view v).seenSourceFills = (store.view v).seenSourceFills ∧
    (store'.view v).netUnhedgedOunces = (store.view v).netUnhedgedOunces

theorem Advanced.same {fills : List HedgeFill} {i j : HedgeIntent} (h : Advanced fills i j)
    (none' : owed fills i = []) : j = i := by
  have filled := h.filled
  have legFilled := h.legFilled
  have status := h.status
  rw [none'] at filled legFilled status
  simp only [quantity, List.map_nil, List.sum_nil, add_zero] at filled
  simp only [quantity, List.map_nil, List.sum_nil, add_zero, ite_self] at legFilled
  simp only [if_true] at status
  have fields : j.toIntentFields = i.toIntentFields := by
    have framed := h.framed
    unfold frame at framed
    obtain ⟨fields, _⟩ := j
    obtain ⟨fields', _⟩ := i
    cases fields
    cases fields'
    simp_all
  cases i
  cases j
  cases fields
  rfl

section Outcome

variable {store store' : BusinessStore} {orders : List Order} {route : NativeRoute}
  {reason : String} {missing : List (ViewKey × HedgeFill)} {pub : Publication}

/-- A projection that succeeds: the first count, and what its fills made of each view. -/
structure Outcome (store store' : BusinessStore) (orders : List Order) (route : NativeRoute)
    (reason : String) (w : Walk) (c : Count) : Prop where
  validated : Validated store orders route store.view w c
  evidence : Evidence store.view store.viewKeys (byId orders)
  published : ∃ view, Published store store' view
  grown : ∀ v ∈ store.viewKeys,
    Grown (ofView c.missing v) (heldViews store reason v) (store'.view v)

theorem outcome (validates : missingFills store orders route reason = .ok missing)
    (h : publish store reason missing pub = (.ok (), store')) :
    ∃ w c, store.viewKeys.foldlM (walkView store.view) {} = .ok w ∧
      w.bindings.entries.foldlM (countOrder store route (byId orders) store.view) {} = .ok c ∧
      (∀ v ∈ store.viewKeys, checkSeen store.view c v = .ok ()) ∧ c.missing = missing ∧
      Outcome store store' orders route reason w c := by
  obtain ⟨-, -, w, walked, -, c, counts, checked, rfl⟩ := missingFills_eq_ok.1 validates
  have valid := validated walked counts
  have evidence := valid.evidence checked
  have known : ∀ m ∈ c.missing, m.1 ∈ store.viewKeys := by
    intro m member
    rw [valid.missing, List.mem_flatMap] at member
    obtain ⟨entry, listed, member⟩ := member
    obtain ⟨fill, lacks⟩ := valid.lacks listed member
    exact (mem_intentsOf.1 lacks.held).1
  obtain ⟨view, applied, published⟩ := publish_eq_ok known h
  refine ⟨w, c, walked, counts, checked, rfl, valid, evidence, ⟨view, published⟩,
    fun v member => ?_⟩
  rw [published.views v member]
  exact applyMissing_grown (fun m member => valid.due evidence reason member)
    (valid.distinct evidence) applied v

variable {w : Walk} {c : Count}

/-- An intent of the new views, and the one it was. -/
theorem Outcome.origin (h : Outcome store store' orders route reason w c) {v : ViewKey}
    {j : HedgeIntent} (held : (v, j) ∈ intentsOf store'.view store'.viewKeys) :
    ∃ i, (v, i) ∈ intentsOf store.view store.viewKeys ∧ Advanced (ofView c.missing v) i j := by
  obtain ⟨view, published⟩ := h.published
  obtain ⟨known, member⟩ := mem_intentsOf.1 held
  rw [published.keys] at known
  obtain ⟨k, found⟩ := (Dict.mem_values_iff _ _).1 member
  obtain ⟨i, there, advanced⟩ := (h.grown v known).each k j found
  rw [intents_held] at there
  exact ⟨i, mem_intentsOf.2 ⟨known, (Dict.mem_values_iff _ _).2 ⟨k, there⟩⟩, advanced⟩

theorem Outcome.image (h : Outcome store store' orders route reason w c) {v : ViewKey}
    (known : v ∈ store.viewKeys) :
    (store'.view v).hedgeIntents.image frame = (store.view v).hedgeIntents.image frame := by
  rw [(h.grown v known).image, intents_held]

theorem Outcome.seenAll (h : Outcome store store' orders route reason w c) {v : ViewKey}
    {i : HedgeIntent} (held : (v, i) ∈ intentsOf store.view store.viewKeys) {cid : String}
    (own : cid ∈ boundOrders i) :
    seenOf (store'.view v) cid = ((fillsOf (byId orders) cid).map key).toFinset :=
  h.validated.seen_all h.evidence held own (seen_held store reason v)
    (h.grown v (mem_intentsOf.1 held).1)

theorem Outcome.caught (h : Outcome store store' orders route reason w c) :
    Caught store store' (byId orders) reason := by
  obtain ⟨view, published⟩ := h.published
  have held : ∀ v ∈ store.viewKeys, heldViews store reason v = (store.view v).hold reason :=
    fun v known => if_pos known
  refine ⟨published.keys, ?_, ?_, ?_, ?_, ?_, ?_, ?_, ?_⟩
  · intro v j v' j' held held' cid own own'
    obtain ⟨i, from', advanced⟩ := h.origin held
    obtain ⟨i', from'', advanced'⟩ := h.origin held'
    rw [boundOrders_of_frame advanced.framed] at own
    rw [boundOrders_of_frame advanced'.framed] at own'
    obtain ⟨rfl, rfl⟩ := h.evidence.sole _ _ _ _ from' from'' cid (.inl own) (.inl own')
    obtain ⟨known, member⟩ := mem_intentsOf.1 held
    obtain ⟨k, found⟩ := (Dict.mem_values_iff _ _).1 member
    obtain ⟨k', found'⟩ := (Dict.mem_values_iff _ _).1 (mem_intentsOf.1 held').2
    rw [published.keys] at known
    obtain ⟨old, there, framed⟩ := Dict.get?_of_image (h.image known) found
    obtain ⟨old', there', framed'⟩ := Dict.get?_of_image (h.image known) found'
    have named := (h.validated.walk.walked v known (k, old)
      ((Dict.mem_entries_iff _ _ _).2 there)).named
    have named' := (h.validated.walk.walked v known (k', old')
      ((Dict.mem_entries_iff _ _ _).2 there')).named
    have same : k = k' := by
      have first := frame_intentId (framed.trans advanced.framed)
      have second := frame_intentId (framed'.trans advanced'.framed)
      exact named.trans (first.trans (second.symm.trans named'.symm))
    subst same
    exact ⟨rfl, Option.some.inj (found.symm.trans found')⟩
  · intro v j held
    obtain ⟨i, from', advanced⟩ := h.origin held
    rw [boundOrders_of_frame advanced.framed]
    exact ⟨(h.evidence.plain v i from').1,
      fun cid own => (h.evidence.facts v i from' cid own).distinct⟩
  · intro v known k
    rw [published.keys] at known
    have shown : ∀ cid i, (v, i) ∈ intentsOf store.view store.viewKeys → cid ∈ boundOrders i →
        ∃ j, (v, j) ∈ intentsOf store'.view store'.viewKeys ∧ cid ∈ boundOrders j := by
      intro cid i from' own
      obtain ⟨j, found, framed⟩ := Dict.get?_of_image (h.image known).symm
        (h.evidence.named v i from')
      refine ⟨j, mem_intentsOf.2 ⟨by rw [published.keys]; exact known,
        (Dict.mem_values_iff _ _).2 ⟨_, found⟩⟩, ?_⟩
      rw [boundOrders_of_frame framed]
      exact own
    constructor
    · intro member
      rw [(h.grown v known).seen, seen_held, Finset.mem_union, List.mem_toFinset] at member
      rcases member with old | new
      · obtain ⟨i, from', cid, own, fill, listed, same⟩ := h.evidence.seen v known k old
        obtain ⟨j, held, own'⟩ := shown cid i from' own
        exact ⟨j, held, cid, own', fill, listed, same⟩
      · obtain ⟨fill, among, rfl⟩ := List.mem_map.1 new
        obtain ⟨m, lacked, rfl⟩ := List.mem_map.1 among
        obtain ⟨there, here⟩ := List.mem_filter.1 lacked
        obtain rfl : m.1 = v := by simpa using here
        rw [h.validated.missing, List.mem_flatMap] at there
        obtain ⟨entry, listed, lacked⟩ := there
        obtain ⟨fill, lacks⟩ := h.validated.lacks listed lacked
        have own := ((h.evidence.plain _ _ lacks.held).2.2 entry.1 lacks.current).1
        obtain ⟨j, held, own'⟩ := shown entry.1 _ lacks.held own
        exact ⟨j, held, entry.1, own', fill, List.mem_of_mem_drop lacks.late,
          by rw [lacks.same, business_fillKey]⟩
    · rintro ⟨j, held, cid, own, fill, listed, rfl⟩
      obtain ⟨i, from', advanced⟩ := h.origin held
      rw [boundOrders_of_frame advanced.framed] at own
      have all := h.seenAll from' own
      have among : key fill ∈ seenOf (store'.view v) cid := by
        rw [all, List.mem_toFinset]
        exact List.mem_map_of_mem listed
      exact (Finset.mem_filter.1 among).1
  · intro v j held
    obtain ⟨i, from', advanced⟩ := h.origin held
    rw [boundOrders_of_frame advanced.framed]
    exact h.validated.filled_all h.evidence from' advanced
  · intro v j held planned cid current
    obtain ⟨i, from', advanced⟩ := h.origin held
    rw [frame_plan advanced.framed] at planned
    rw [Option.mem_def, frame_current advanced.framed] at current
    exact h.validated.legFilled_all h.evidence from' advanced planned current
  · intro v known id i found
    obtain ⟨j, there, framed⟩ := Dict.get?_of_image (h.image known).symm found
    obtain ⟨i', found', advanced⟩ := (h.grown v known).each id j there
    rw [intents_held, found, Option.some.injEq] at found'
    subst found'
    refine ⟨j, there, framed, frame_legIndex framed, ?_⟩
    by_cases none' : owed (ofView c.missing v) i = []
    · exact .inl (advanced.same none')
    · exact .inr (by rw [advanced.status, if_neg none'])
  · intro v known
    rw [(h.grown v known).halt, (h.grown v known).freeze, held v known]
    exact ⟨rfl, rfl⟩
  · intro v known
    have grown := h.grown v known
    rw [held v known] at grown
    exact ⟨grown.sources, grown.active, grown.seenSources, grown.net⟩

theorem Outcome.progress (h : Outcome store store' orders route reason w c) {v : ViewKey}
    {i : HedgeIntent} (held : (v, i) ∈ intentsOf store.view store.viewKeys) {cid : String}
    (own : cid ∈ boundOrders i) :
    progress (store'.view v) (byId orders) cid = totalQty (fillsOf (byId orders) cid) :=
  (h.evidence.facts v i held cid own).progress_all (h.seenAll held own)

/-- Its fills take an intent no further than it was opened for. -/
theorem Outcome.within (h : Outcome store store' orders route reason w c) {v : ViewKey}
    {i j : HedgeIntent} (held : (v, i) ∈ intentsOf store.view store.viewKeys)
    (advanced : Advanced (ofView c.missing v) i j) :
    j.hedgeFilledOunces ≤ j.hedgeQuantityOunces := by
  rw [(frame_hedge advanced.framed).2.1, advanced.filled]
  cases current : i.hedgeClientOrderId with
  | none =>
    rw [owed_unbound current]
    simpa [quantity] using h.evidence.within v i held
  | some cid =>
    have room := h.evidence.room held current
    have split := totalQty_take_drop (fillsOf (byId orders) cid) (seenOf (store.view v) cid).card
    rw [h.validated.owed_eq h.evidence held current, quantity_business]
    unfold HedgeProjection.progress at room
    linarith

/-- The walk over the views goes again as it went. -/
theorem Outcome.walkAgain (h : Outcome store store' orders route reason w c)
    (walked : store.viewKeys.foldlM (walkView store.view) {} = .ok w) :
    ∃ w', store'.viewKeys.foldlM (walkView store'.view) {} = .ok w' ∧ Twins w w' := by
  obtain ⟨view, published⟩ := h.published
  rw [published.keys]
  refine foldlM_simulates (R := Twins) (S := fun v v' => v = v' ∧ v ∈ store.viewKeys)
    (fun u t v v' u' related same turn => ?_) ?_ ⟨rfl, rfl, rfl, .nil⟩ walked
  · obtain ⟨rfl, known⟩ := same
    have held : heldViews store reason v = (store.view v).hold reason := if_pos known
    have grown := h.grown v known
    rw [held] at grown
    exact walkView_twin (s := (store.view v).hold reason) rfl rfl rfl rfl grown related turn
  · rw [List.forall₂_same]
    exact fun v known => ⟨rfl, known⟩

/-- The count over the orders goes again, and finds nothing missing. -/
theorem Outcome.countAgain (h : Outcome store store' orders route reason w c) {w' : Walk}
    (twins : Twins w w')
    (counts : w.bindings.entries.foldlM (countOrder store route (byId orders) store.view) {} =
      .ok c) :
    ∃ c', w'.bindings.entries.foldlM (countOrder store' route (byId orders) store'.view) {} =
      .ok c' ∧
      c'.missing = [] := by
  obtain ⟨view, published⟩ := h.published
  have turns : ∀ (u t : Count) (e e' : String × Binding) (u' : Count),
      t.trades = u.trades ∧ t.missing = [] → e ∈ w.bindings.entries ∧ Twin e e' →
      countOrder store route (byId orders) store.view u e = .ok u' →
      ∃ t', countOrder store' route (byId orders) store'.view t e' = .ok t' ∧
        t'.trades = u'.trades ∧ t'.missing = [] := by
    rintro u t e e' u' ⟨trades, none'⟩ ⟨listed, twin⟩ turn
    obtain ⟨held, own⟩ := h.validated.walk.listed listed
    obtain ⟨t', turn', trades', missing⟩ := countOrder_twin published.strategy twin
      (fun live => h.seenAll held ((mem_boundEntries own).2.2.resolve_right live)) trades turn
    exact ⟨t', turn', trades', missing.trans none'⟩
  obtain ⟨c', again, -, none'⟩ := foldlM_simulates turns
    ((List.forall₂_and_left _ _).2 ⟨fun _ member => member, twins.bindings⟩) (t := {}) ⟨rfl, rfl⟩
    counts
  exact ⟨c', again, none'⟩

/-- Every view passes its check again. -/
theorem Outcome.checkAgain (h : Outcome store store' orders route reason w c) {w' : Walk}
    {c' : Count} (again : Validated store' orders route store'.view w' c') {v : ViewKey}
    (known : v ∈ store'.viewKeys) : checkSeen store'.view c' v = .ok () := by
  have caught := h.caught
  rw [checkSeen_eq_ok]
  constructor
  · intro k member
    obtain ⟨i, held, cid, own, fill, listed, same⟩ := (caught.seen v known k).1 member
    obtain ⟨b, bound, view, -⟩ := again.walk.bound held (.inl own)
    exact (again.keys v k).2 ⟨(cid, b), bound, view, fill, listed, same⟩
  · intro j member
    have held : (v, j) ∈ intentsOf store'.view store'.viewKeys := mem_intentsOf.2 ⟨known, member⟩
    obtain ⟨i, from', advanced⟩ := h.origin held
    have same := boundOrders_of_frame advanced.framed
    have total : c'.totals j.intentId = j.hedgeFilledOunces := by
      rw [again.total held, caught.filled v j held, same]
      congr 1
      exact List.map_congr_left fun cid own => h.progress from' own
    rw [total]
    refine ⟨rfl, h.within from' advanced, fun planned => ?_, fun completed => ?_⟩
    · have planned' : i.hedgePlan ≠ [] := by
        rw [← frame_plan advanced.framed]
        exact planned
      constructor
      · rw [again.current v j held]
        cases current : j.hedgeClientOrderId with
        | none =>
          have unbound : i.hedgeClientOrderId = none :=
            (frame_current advanced.framed).symm.trans current
          rw [advanced.legFilled, owed_unbound unbound, h.evidence.legFilled v i from' planned',
            unbound]
          simp [quantity]
        | some cid =>
          have current' : i.hedgeClientOrderId = some cid :=
            (frame_current advanced.framed).symm.trans current
          have own := ((h.evidence.plain v i from').2.2 cid current').1
          rw [caught.legFilled v j held planned cid current]
          exact h.progress from' own
      · rw [advanced.filled, advanced.legFilled, if_pos planned',
          h.evidence.legs v i from' planned',
          frame_plan advanced.framed, frame_legIndex advanced.framed]
        ring
    · have untouched : owed (ofView c.missing v) i = [] := by
        by_contra touched
        have status := advanced.status
        rw [if_neg touched, completed] at status
        cases status
      obtain rfl := advanced.same untouched
      exact h.evidence.completed v j from' completed

end Outcome

/-- Projected again, the same orders lack nothing. -/
theorem missingFills_again {store store' : BusinessStore} {orders : List Order}
    {route : NativeRoute} {reason : String} {missing : List (ViewKey × HedgeFill)}
    {pub : Publication} (validates : missingFills store orders route reason = .ok missing)
    (h : publish store reason missing pub = (.ok (), store')) :
    missingFills store' orders route reason = .ok [] := by
  obtain ⟨named, owner, w₀, walked₀, sets, -⟩ := missingFills_eq_ok.1 validates
  obtain ⟨w, c, walked, counts, -, -, out⟩ := outcome validates h
  obtain rfl : w₀ = w := Except.ok.inj (walked₀.symm.trans walked)
  obtain ⟨view, published⟩ := out.published
  obtain ⟨w', walked', twins⟩ := out.walkAgain walked
  obtain ⟨c', counts', none'⟩ := out.countAgain twins counts
  have keys : w'.bindings.keys = w₀.bindings.keys := map_fst_of_twins twins.bindings
  refine missingFills_eq_ok.2 ⟨named, published.valid _ _ _ owner, w', walked', ?_, c', counts',
    fun v known => out.checkAgain (validated walked' counts') known, none'⟩
  rw [keys, twins.sources]
  exact sets

/-- A view's change leaves the rest of its owner. -/
theorem projectHedgeFills_rest {o changed : MakerStateStore} {reason : String}
    {missing : List (ViewKey × HedgeFill)} (h : o.projectHedgeFills reason missing = .ok changed) :
    changed.cfg = o.cfg ∧ changed.committed = o.committed ∧
      changed.freezePublicationFailed = o.freezePublicationFailed := by
  unfold MakerStateStore.projectHedgeFills at h
  refine foldlM_invariant (P := fun u : MakerStateStore => u.cfg = o.cfg ∧
    u.committed = o.committed ∧ u.freezePublicationFailed = o.freezePublicationFailed)
    (s := o.holdViews reason) (fun u m u' kept turn => ?_) ⟨rfl, rfl, rfl⟩ h
  simp only [bind_eq_ok, pure_eq_ok] at turn
  obtain ⟨_, -, rfl⟩ := turn
  exact kept

/-- A publication that fails leaves all but the book. -/
theorem persist_eq_error {o o' : MakerStateStore} {pub : Publication} {e : Raised}
    (h : o.persist pub = (.error e, o')) (other : e ≠ .parentDirectorySyncError) :
    o'.cfg = o.cfg ∧ o'.committed = o.committed ∧
      o'.freezePublicationFailed = o.freezePublicationFailed := by
  have candidate : o.candidate.cfg = o.cfg ∧ o.candidate.committed = o.committed ∧
      o.candidate.freezePublicationFailed = o.freezePublicationFailed := by
    unfold MakerStateStore.candidate
    split <;> exact ⟨rfl, rfl, rfl⟩
  unfold MakerStateStore.persist at h
  dsimp only at h
  split at h
  · cases h
    exact candidate
  · cases pub with
    | published => cases h
    | failed =>
      cases h
      exact candidate
    | parentSyncFailed =>
      cases h
      exact absurd rfl other

/-- An owner whose change is not published is as it was. -/
theorem transact_error {o o' : MakerStateStore} {pub : Publication}
    {change : Except Raised MakerStateStore} {e : Raised}
    (rest : ∀ changed, change = .ok changed → changed.cfg = o.cfg ∧
      changed.committed = o.committed ∧
      changed.freezePublicationFailed = o.freezePublicationFailed)
    (h : o.transact pub change = (.error e, o')) (other : e ≠ .parentDirectorySyncError) :
    o' = o := by
  unfold MakerStateStore.transact at h
  split at h
  · cases h
    rfl
  · rename_i changed
    obtain ⟨cfg, committed, flag⟩ := rest changed rfl
    split at h
    · cases h
    · rename_i raised mid persisted
      cases h
      rw [if_neg other]
      obtain ⟨cfg', committed', flag'⟩ := persist_eq_error persisted other
      unfold MakerStateStore.setBook
      rw [cfg', committed', flag', cfg, committed, flag]

theorem publish_eq_error {store store' : BusinessStore} {reason : String}
    {missing : List (ViewKey × HedgeFill)} {pub : Publication} {e : Raised}
    (h : publish store reason missing pub = (.error e, store'))
    (other : e ≠ .parentDirectorySyncError) : store' = store := by
  cases store with
  | standalone store =>
    unfold publish at h
    dsimp only at h
    obtain ⟨result, rfl⟩ := Prod.mk.inj h
    congr 1
    unfold StoreState.projectHedgeFills at result ⊢
    split at result
    · rfl
    · cases pub with
      | published => cases result
      | failed => rfl
      | parentSyncFailed => exact absurd (Except.error.inj result).symm other
  | owner o instruments =>
    unfold publish at h
    dsimp only at h
    obtain ⟨result, rfl⟩ := Prod.mk.inj h
    congr 1
    exact transact_error (fun _ => projectHedgeFills_rest) (Prod.ext result rfl) other

/-- A projection that adds fills catches every bound order up, a second one changes nothing,
and one that is not published leaves the store as it was. -/
theorem projectHedgeFills_catchesUp (store : BusinessStore) (orders : List Order)
    (route : NativeRoute) (reason : String) (pub : Publication) :
    (∀ n store', projectHedgeFills store orders route reason pub = (.ok n, store') → n ≠ 0 →
      Caught store store' (byId orders) reason ∧
        ∀ again, projectHedgeFills store' orders route reason again = (.ok 0, store')) ∧
    ∀ e store', projectHedgeFills store orders route reason pub = (.error e, store') →
      e ≠ .parentDirectorySyncError → store' = store := by
  constructor
  · intro n store' h some'
    unfold projectHedgeFills at h
    split at h
    · cases h
    · rename_i missing validates
      split at h
      · cases h
        exact absurd rfl some'
      · cases outcome' : publish store reason missing pub with
        | mk result after =>
          rw [outcome'] at h
          cases result with
          | error e => cases h
          | ok u =>
            cases h
            obtain ⟨w, c, -, -, -, -, out⟩ := outcome validates outcome'
            refine ⟨out.caught, fun again => ?_⟩
            unfold projectHedgeFills
            rw [missingFills_again validates outcome']
            rfl
  · intro e store' h other
    unfold projectHedgeFills at h
    split at h
    · cases h
      rfl
    · rename_i missing validates
      split at h
      · cases h
      · cases outcome' : publish store reason missing pub with
        | mk result after =>
          rw [outcome'] at h
          cases result with
          | error raised =>
            cases h
            exact publish_eq_error outcome' other
          | ok u => cases h

/-- Two legs of one ounce: the store has seen the first filled, and the second one's order bound. -/
def secondLeg : List StoreOp := [
  .beginSource { clientOrderId := "O-1", side := .buy, quantityOunces := 2 },
  .reserveSourceFill ⟨"O-1|V-1|T-1", "O-1", "T-1", .buy, 2⟩,
  .bindHedgePlan "hedge-d31eeeaaf150156a8ad133b4"
    [⟨{ side := .sell, quantityOunces := 1 }, by decide +kernel⟩,
      ⟨{ side := .sell, quantityOunces := 1 }, by decide +kernel⟩],
  .bindHedgeOrder "hedge-d31eeeaaf150156a8ad133b4" "H-1",
  .applyHedgeFill ⟨"H-1", "D-1", 1⟩,
  .bindHedgeOrder "hedge-d31eeeaaf150156a8ad133b4" "H-2"]

/-- A native order of one ounce, filled by one trade. -/
def filledOrder (cid venueOrderId tradeId : String) : Order :=
  let owner : EventOwner := ⟨"TRADER", "HEDGE", "XAUUSD", cid⟩
  { traderId := "TRADER", strategyId := "HEDGE", instrumentId := "XAUUSD", clientOrderId := cid,
    venueOrderId := some venueOrderId, positionId := some "P-1", accountId := some "MT5",
    side := .sell, orderType := .market, timeInForce := .fok, isQuoteQuantity := false,
    isReduceOnly := false, quantity := 1, filledQty := 1, status := .filled, isClosed := true,
    tradeIds := [tradeId],
    events := [
      .initialized ⟨owner, .sell, .market, .fok, 1, false, false⟩,
      .filled ⟨owner, "MT5", venueOrderId, tradeId, some "P-1", .sell, .market, 1⟩] }

theorem projectHedgeFills_catchesUp_secondLeg : ∃ store store' orders, ∃ route : NativeRoute,
    projectHedgeFills store orders route "RECOVERY" .published = (.ok 1, store') ∧
      Caught store store' (byId orders) "RECOVERY" := by
  let store : BusinessStore :=
    .standalone (JsonStateStore.empty.run (fun _ => "d31eeeaaf150156a8ad133b4") secondLeg)
  let orders := [filledOrder "H-1" "V-1" "D-1", filledOrder "H-2" "V-2" "D-2"]
  let route : NativeRoute := ⟨"XAUUSD", "TRADER", "HEDGE"⟩
  let result := projectHedgeFills store orders route "RECOVERY" .published
  have adds : result.1 = .ok 1 := by decide +kernel
  have same : result = (.ok 1, result.2) := Prod.ext adds rfl
  exact ⟨store, result.2, orders, route, same,
    ((projectHedgeFills_catchesUp store orders route "RECOVERY" .published).1 1 result.2 same
      (by decide)).1⟩

end ArbNautilus.Store.HedgeProjection
