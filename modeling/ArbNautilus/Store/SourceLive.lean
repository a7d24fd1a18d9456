import ArbNautilus.Store.Balances
import ArbNautilus.Store.Custody
import ArbNautilus.Store.SourceAgain
import Mathlib.Data.List.Find

/-! What a projected suffix leaves, beside what the same fills leave when they come in live. -/

namespace ArbNautilus.Store.SourceProjection

open Base Native HedgeProjection

/-- An intent of the live path, and the one a projection leaves in its place. -/
def Blocks (keys : List String) (taken held : HedgeIntent) : Prop :=
  if taken.fillKey ∈ keys then
    taken.status = .pending ∧ held.toIntentFields = { taken.toIntentFields with status := .blocked }
  else held = taken

/-- A view after live fills, and the same view after they were projected. -/
structure Mirrors (keys : List String) (live held : StoreState) : Prop where
  orders : held.sourceOrders = live.sourceOrders
  seen : held.seenSourceFills = live.seenSourceFills
  seenHedges : held.seenHedgeFills = live.seenHedgeFills
  net : held.netUnhedgedOunces = live.netUnhedgedOunces
  intents : List.Forall₂ (fun taken held => held.1 = taken.1 ∧ Blocks keys taken.2 held.2)
    live.hedgeIntents.entries held.hedgeIntents.entries

theorem assign_forall₂ {κ ν : Type} [DecidableEq κ] {R : ν → ν → Prop} {es fs : List (κ × ν)}
    {k : κ} {v w : ν}
    (related : List.Forall₂ (fun e f => f.1 = e.1 ∧ R e.2 f.2) es fs) (new : R v w) :
    List.Forall₂ (fun e f => f.1 = e.1 ∧ R e.2 f.2) (Dict.assign k v es) (Dict.assign k w fs) := by
  induction related with
  | nil => exact .cons ⟨rfl, new⟩ .nil
  | @cons e f es fs first rest ih =>
    unfold Dict.assign
    rw [first.1]
    by_cases here : e.1 = k
    · rw [if_pos here, if_pos here]
      exact .cons ⟨rfl, new⟩ rest
    · rw [if_neg here, if_neg here]
      exact .cons ⟨rfl, first.2⟩ ih

theorem Mirrors.refl {keys : List String} {s : StoreState}
    (fresh : ∀ intent ∈ s.hedgeIntents.values, intent.fillKey ∉ keys) : Mirrors keys s s := by
  refine ⟨rfl, rfl, rfl, rfl, List.forall₂_same.2 ?_⟩
  intro entry member
  refine ⟨rfl, ?_⟩
  rw [Blocks, if_neg (fresh entry.2 (List.mem_map_of_mem member))]

/-- A change of holds alone. -/
theorem Mirrors.of_same {keys : List String} {live held live' held' : StoreState}
    (h : Mirrors keys live held)
    (orders : live'.sourceOrders = live.sourceOrders)
    (seen : live'.seenSourceFills = live.seenSourceFills)
    (seenHedges : live'.seenHedgeFills = live.seenHedgeFills)
    (net : live'.netUnhedgedOunces = live.netUnhedgedOunces)
    (intents : live'.hedgeIntents = live.hedgeIntents)
    (orders' : held'.sourceOrders = held.sourceOrders)
    (seen' : held'.seenSourceFills = held.seenSourceFills)
    (seenHedges' : held'.seenHedgeFills = held.seenHedgeFills)
    (net' : held'.netUnhedgedOunces = held.netUnhedgedOunces)
    (intents' : held'.hedgeIntents = held.hedgeIntents) :
    Mirrors keys live' held' := by
  refine ⟨?_, ?_, ?_, ?_, ?_⟩
  · rw [orders', orders, h.orders]
  · rw [seen', seen, h.seen]
  · rw [seenHedges', seenHedges, h.seenHedges]
  · rw [net', net, h.net]
  · rw [intents', intents]
    exact h.intents

section Step

variable {digest : String → String} {reason : String} {keys : List String} {live held : StoreState}
  {record : SourceOrderRecord} {fill : SourceFill}

/-- A live fill is recorded as a projected one is; it may lift the order's holds. -/
theorem recordSourceFill_live (s : StoreState) (side : record.side = fill.sourceSide)
    (positive : 0 < fill.fillOunces) :
    ∃ t, s.recordSourceFill record fill none = .ok t ∧
      t.sourceOrders = s.sourceOrders.set fill.clientOrderId (record.take fill.fillOunces) ∧
      t.seenSourceFills = insert fill.fillKey s.seenSourceFills ∧
      t.seenHedgeFills = s.seenHedgeFills ∧
      t.netUnhedgedOunces = s.netUnhedgedOunces ∧ t.hedgeIntents = s.hedgeIntents := by
  have sides : raiseIf (record.side ≠ fill.sourceSide)
      (Raised.valueError "source fill side does not match submitted order") =
        .ok () := by simpa using side
  have checked :
      raiseIf (fill.fillOunces ≤ 0) (Raised.valueError "fill quantity must be positive") =
      .ok () := by
    simpa using positive
  unfold StoreState.recordSourceFill
  rw [sides, checked]
  dsimp only [bind, Except.bind]
  split
  · exact ⟨_, rfl, rfl, rfl, rfl, rfl, rfl⟩
  · exact ⟨_, rfl, rfl, rfl, rfl, rfl, rfl⟩

theorem Mirrors.records (h : Mirrors keys live held) {held' : StoreState}
    (recorded : held.recordSourceFill record fill (some reason) = .ok held') :
    ∃ live', live.recordSourceFill record fill none = .ok live' ∧ Mirrors keys live' held' := by
  obtain ⟨side, positive, rfl⟩ := recordSourceFill_take recorded
  obtain ⟨live', accepted, orders, seen, seenHedges, net, intents⟩ :=
    recordSourceFill_live live side positive
  refine ⟨live', accepted, ?_, ?_, ?_, ?_, ?_⟩
  · rw [orders, h.orders]
  · rw [seen, h.seen]
  · rw [seenHedges, h.seenHedges]
  · rw [net, h.net]
  · rw [intents]
    exact h.intents

/-- The obligation of a fill is the same, pending where the projection blocks it. -/
theorem Mirrors.open (h : Mirrors keys live held) (listed : fill.fillKey ∈ keys) {rounded : ℤ}
    {held' : StoreState}
    {opened : Option HedgeIntent}
    (made : held.openHedgeIntent digest record fill (some reason) rounded = .ok (held', opened)) :
    ∃ live' opened', live.openHedgeIntent digest record fill none rounded = .ok (live', opened') ∧
      Mirrors keys live' held' := by
  unfold StoreState.openHedgeIntent
  obtain ⟨zero, rfl, -⟩ | ⟨nonzero, intent, fields, -, rfl⟩ := StoreState.openHedgeIntent_eq_ok made
  · rw [if_pos zero]
    exact ⟨live, none, rfl, h⟩
  · rw [if_neg nonzero]
    have old := intent.sound
    have position : intent.hedgePositionId = record.hedgePositionId := by rw [fields]; rfl
    have quantity : intent.hedgePositionQuantityOunces = record.hedgePositionQuantityOunces := by
      rw [fields]; rfl
    have ticket := old.ticket
    have positive := old.ticketPositive
    rw [position, quantity] at ticket
    rw [quantity] at positive
    obtain ⟨pending, accepted, same⟩ :=
      (openedIntent_sound digest fill ticket positive nonzero).make
    have id : pending.intentId = intent.intentId := by rw [same, fields]; rfl
    refine ⟨{ live with hedgeIntents := live.hedgeIntents.set pending.intentId pending },
      some pending, ?_, ?_⟩
    · rw [bind_eq_ok]
      exact ⟨pending, accepted, rfl⟩
    · refine ⟨h.orders, h.seen, h.seenHedges, h.net, ?_⟩
      show List.Forall₂ _ (Dict.assign pending.intentId pending _)
        (Dict.assign intent.intentId intent _)
      rw [id]
      apply assign_forall₂ h.intents
      have key : pending.fillKey = fill.fillKey := by rw [same]; rfl
      rw [Blocks, if_pos (key ▸ listed)]
      exact ⟨by rw [same]; rfl, by rw [fields, same]; rfl⟩

/-- A fill that a standalone store projects goes through live. -/
theorem Mirrors.apply (h : Mirrors keys live held) (listed : fill.fillKey ∈ keys)
    {held' : StoreState}
    {opened : Option HedgeIntent}
    (applied : held.applySourceFill digest fill (some reason) = .ok (held', opened)) :
    ∃ live' opened', live.applySourceFill digest fill none = .ok (live', opened') ∧
      Mirrors keys live' held' := by
  unfold StoreState.applySourceFill at applied ⊢
  rw [h.seen, h.orders] at applied
  split at applied
  · rename_i seen
    cases applied
    rw [if_pos seen]
    exact ⟨live, none, rfl, h⟩
  · rename_i unseen
    rw [if_neg unseen]
    split at applied
    · cases applied
      exact ⟨live, none, rfl, h⟩
    · rename_i found
      rw [bind_eq_ok] at applied
      obtain ⟨recorded, booked, made⟩ := applied
      obtain ⟨live', accepted, next⟩ := h.records booked
      have allocated : Mirrors keys (live'.allocateSourceFill fill.signedFill).1
          (recorded.allocateSourceFill fill.signedFill).1 := by
        refine ⟨next.orders, next.seen, next.seenHedges, ?_, next.intents⟩
        simp only [StoreState.allocateSourceFill, next.net]
      have rounded : (recorded.allocateSourceFill fill.signedFill).2 =
          (live'.allocateSourceFill fill.signedFill).2 := by
        simp only [StoreState.allocateSourceFill, next.net]
      obtain ⟨last, opened', accepted', mirrors⟩ := allocated.open listed made
      refine ⟨last, opened', ?_, mirrors⟩
      simp only [bind_eq_ok]
      exact ⟨live', accepted, rounded ▸ accepted'⟩

end Step

/-- `reserve_source_fill` on a view. -/
def reserveSourceFill (digest : String → String) (store : BusinessStore) (v : ViewKey)
    (pub : Publication)
    (fill : SourceFill) : Except Raised (Option HedgeIntent) × BusinessStore :=
  match store with
  | .standalone store =>
    let (result, store') := store.commit pub (store.memory.reserveSourceFill digest fill)
    (result, .standalone store')
  | .owner o instruments =>
    let (result, o') := o.reserveSourceFill digest v pub fill
    (result, .owner o' instruments)

def reserved (digest : String → String) (v : ViewKey) (store : BusinessStore) (fill : SourceFill) :
    Except Raised BusinessStore :=
  match reserveSourceFill digest store v .published fill with
  | (.ok _, store') => .ok store'
  | (.error e, _) => .error e

/-- The fills as they come in live, each of them published. -/
def live (digest : String → String) (store : BusinessStore) (v : ViewKey)
    (fills : List SourceFill) :
    Except Raised BusinessStore :=
  fills.foldlM (reserved digest v) store

section Live

variable {digest : String → String} {reason : String} {keys : List String}

theorem reserveSourceFill_of_applied {s t : StoreState} {fill : SourceFill}
    {opened : Option HedgeIntent}
    (applied : s.applySourceFill digest fill none = .ok (t, opened)) :
    s.reserveSourceFill digest fill = .keeps none ∧ t = s ∨
      s.reserveSourceFill digest fill = .reserves t opened := by
  unfold StoreState.reserveSourceFill
  split
  · rename_i skipped
    refine .inl ⟨rfl, ?_⟩
    unfold StoreState.applySourceFill at applied
    obtain seen | unknown := skipped
    · rw [if_pos seen] at applied
      cases applied
      rfl
    · have none' : s.sourceOrders.get? fill.clientOrderId = none := by
        simpa [StoreState.knowsSourceOrder] using unknown
      rw [none'] at applied
      split at applied
      · cases applied
        rfl
      · cases applied
        rfl
  · rw [applied]
    exact .inr rfl

/-- A standalone store takes every fill live that it takes from a projection. -/
theorem live_standalone {fills : List SourceFill} (listed : ∀ fill ∈ fills, fill.fillKey ∈ keys)
    (v : ViewKey)
    {store : JsonStateStore} {held held' : StoreState} (mirrors : Mirrors keys store.memory held)
    (h : fills.foldlM
      (fun t fill => Prod.fst <$> StoreState.applySourceFill digest t fill (some reason)) held =
      .ok held') :
    ∃ store', live digest (.standalone store) v fills = .ok (.standalone store') ∧
      Mirrors keys store'.memory held' := by
  induction fills generalizing store held with
  | nil =>
    simp only [List.foldlM_nil, pure_eq_ok] at h
    subst h
    exact ⟨store, rfl, mirrors⟩
  | cons fill fills ih =>
    obtain ⟨here, listed⟩ := List.forall_mem_cons.1 listed
    simp only [List.foldlM_cons, bind_eq_ok, map_eq_ok, Prod.exists] at h
    obtain ⟨_, ⟨mid, opened, applied, rfl⟩, loop⟩ := h
    obtain ⟨taken, opened', accepted, next⟩ := mirrors.apply here applied
    obtain ⟨store₁, one, mirrors₁⟩ : ∃ store₁, reserved digest v (.standalone store) fill =
        .ok (.standalone store₁) ∧ Mirrors keys store₁.memory mid := by
      obtain ⟨kept, rfl⟩ | reserves := reserveSourceFill_of_applied accepted
      · refine ⟨store, ?_, next⟩
        simp only [reserved, reserveSourceFill, kept, JsonStateStore.commit]
      · refine ⟨⟨taken, taken⟩, ?_, next⟩
        simp only [reserved, reserveSourceFill, reserves, JsonStateStore.commit]
    obtain ⟨store', rest, last⟩ := ih listed mirrors₁ loop
    refine ⟨store', ?_, last⟩
    unfold live at rest ⊢
    rw [List.foldlM_cons, bind_eq_ok]
    exact ⟨_, one, rest⟩

/-- The same, view by view, with the allocations of the owner. -/
structure OwnerMirrors (keys : List String) (live held : MakerStateStore) : Prop where
  cfg : held.cfg = live.cfg
  allocations : held.book.allocations = live.book.allocations
  views : ∀ w ∈ live.cfg.viewKeys, Mirrors keys (live.view w) (held.view w)

theorem OwnerMirrors.apply {o held held' : MakerStateStore} (h : OwnerMirrors keys o held)
    {v : ViewKey}
    (known : v ∈ o.cfg.viewKeys) {fill : SourceFill} (listed : fill.fillKey ∈ keys)
    {opened : Option HedgeIntent}
    (applied : held.applySourceFill digest v fill (some reason) = .ok (held', opened)) :
    ∃ o' opened', o.applySourceFill digest v fill none = .ok (o', opened') ∧
      OwnerMirrors keys o' held' := by
  have here := h.views v known
  unfold MakerStateStore.applySourceFill at applied ⊢
  rw [here.seen, here.orders] at applied
  split at applied
  · rename_i seen
    cases applied
    rw [if_pos seen]
    exact ⟨o, none, rfl, h⟩
  · rename_i unseen
    rw [if_neg unseen]
    split at applied
    · cases applied
      exact ⟨o, none, rfl, h⟩
    · rename_i record found
      simp only [bind_eq_ok, Prod.exists, pure_eq_ok, Prod.mk.injEq] at applied
      obtain ⟨recorded, booked, result, intent, made, rfl, -⟩ := applied
      obtain ⟨recorded', accepted, mirrors⟩ := here.records booked
      have views (b : Book) (s : StoreState) (k : String) (x : ℚ) (cfg : OwnerConfig) :
          ((cfg.allocate (b.setView v s) record k x).1.views v) =
            s := by simp [OwnerConfig.allocate, Book.setView]
      have residual : held.cfg.residual (held.book.setView v recorded) (route record) =
          o.cfg.residual (o.book.setView v recorded') (route record) := by
        rw [OwnerConfig.residual_eq_balanceAfter, OwnerConfig.residual_eq_balanceAfter, h.cfg]
        exact congrArg (fun items => o.cfg.balanceAfter items _) h.allocations
      have rounded :
        (held.cfg.allocate (held.book.setView v recorded) record fill.fillKey fill.signedFill).2 =
          (o.cfg.allocate (o.book.setView v recorded') record fill.fillKey fill.signedFill).2 := by
        simp only [OwnerConfig.allocate, residual]
      rw [views] at made
      obtain ⟨last, opened', accepted', mirrors'⟩ := mirrors.open listed made
      refine ⟨o.setBook ((o.cfg.allocate (o.book.setView v recorded') record fill.fillKey
        fill.signedFill).1.setView v last), opened', ?_, ?_⟩
      · simp only [bind_eq_ok, Prod.exists, pure_eq_ok, Prod.mk.injEq]
        refine ⟨recorded', accepted, last, opened', ?_, rfl, rfl⟩
        rw [views, ← rounded]
        exact accepted'
      · refine ⟨h.cfg, ?_, ?_⟩
        · show held.book.allocations ++ [_] = o.book.allocations ++ [_]
          rw [h.allocations]
          simp only [residual]
        · intro w member
          by_cases same : w = v
          · subst same
            simpa [MakerStateStore.view, MakerStateStore.setBook, Book.setView] using mirrors'
          · simpa [MakerStateStore.view, MakerStateStore.setBook, Book.setView,
              OwnerConfig.allocate, same] using
              h.views w member

theorem OwnerMirrors.freeze {o held : MakerStateStore} (h : OwnerMirrors keys o held)
    (fill : SourceFill) :
    OwnerMirrors keys (o.freezeForFill fill) held := by
  refine ⟨h.cfg, h.allocations, ?_⟩
  intro w member
  have same : ∀ s : StoreState, ∀ freeze, Mirrors keys s (held.view w) →
      Mirrors keys (MakerStateStore.freezeView s freeze) (held.view w) :=
    fun s freeze m => ⟨m.orders, m.seen, m.seenHedges, m.net, m.intents⟩
  simp only [MakerStateStore.freezeForFill, MakerStateStore.setFreezes, MakerStateStore.setBook,
    MakerStateStore.view]
  split
  · exact same _ _ (h.views w member)
  · exact h.views w member

/-- An owner that takes a fill live, beside one that projects it. -/
theorem OwnerMirrors.reserve {o o' held held' : MakerStateStore} (h : OwnerMirrors keys o held)
    {v : ViewKey}
    (known : v ∈ o.cfg.viewKeys) {fill : SourceFill} (listed : fill.fillKey ∈ keys)
    {opened taken : Option HedgeIntent}
    (applied : held.applySourceFill digest v fill (some reason) = .ok (held', opened))
    (reserves : o.reserveSourceFill digest v .published fill = (.ok taken, o')) :
    OwnerMirrors keys o' held' := by
  unfold MakerStateStore.reserveSourceFill at reserves
  split at reserves
  · rename_i skipped
    cases reserves
    have here := h.views v known
    unfold MakerStateStore.applySourceFill at applied
    rw [here.seen, here.orders] at applied
    obtain seen | unknown := skipped
    · rw [if_pos seen] at applied
      cases applied
      exact h
    · have none' : (o.view v).sourceOrders.get? fill.clientOrderId = none := by
        simpa [StoreState.knowsSourceOrder] using unknown
      rw [none'] at applied
      split at applied
      · cases applied
        exact h
      · cases applied
        exact h
  · obtain ⟨filled, opened', accepted, next⟩ := (h.freeze fill).apply known listed applied
    rw [accepted] at reserves
    dsimp only at reserves
    split at reserves
    · rename_i persisted
      cases reserves
      obtain ⟨views, cfg, allocations, -⟩ := persist_eq_ok persisted
      refine ⟨next.cfg.trans cfg.symm, next.allocations.trans allocations.symm, ?_⟩
      rw [cfg, views]
      exact next.views
    · cases reserves

theorem live_owner {fills : List SourceFill} (listed : ∀ fill ∈ fills, fill.fillKey ∈ keys)
    {v : ViewKey}
    {o held held' : MakerStateStore} {instruments : Instruments} {last : BusinessStore}
    (h : OwnerMirrors keys o held) (known : v ∈ o.cfg.viewKeys)
    (projected :
      fills.foldlM (fun o fill => Prod.fst <$> o.applySourceFill digest v fill (some reason)) held =
      .ok held') (lives : live digest (.owner o instruments) v fills = .ok last) :
    ∃ o', last = .owner o' instruments ∧ o'.cfg = o.cfg ∧ OwnerMirrors keys o' held' := by
  induction fills generalizing o held with
  | nil =>
    simp only [List.foldlM_nil, pure_eq_ok, live] at projected lives
    subst projected lives
    exact ⟨o, rfl, rfl, h⟩
  | cons fill fills ih =>
    obtain ⟨here, listed⟩ := List.forall_mem_cons.1 listed
    unfold live at lives ih
    simp only [List.foldlM_cons, bind_eq_ok, map_eq_ok, Prod.exists] at projected lives
    obtain ⟨_, ⟨mid, opened, applied, rfl⟩, loop⟩ := projected
    obtain ⟨store, one, lives⟩ := lives
    unfold reserved reserveSourceFill at one
    dsimp only at one
    cases taken : o.reserveSourceFill digest v .published fill with
    | mk result o₁ =>
      rw [taken] at one
      cases result with
      | error e => cases one
      | ok intent =>
        cases one
        have next := h.reserve known here applied taken
        have same : o₁.cfg = o.cfg := by
          rw [← next.cfg, ← h.cfg]
          obtain ⟨b, rebooked⟩ := MakerStateStore.applySourceFill_rebooked applied
          rw [rebooked]
          rfl
        obtain ⟨o', rfl, cfg, last⟩ := ih listed next (same ▸ known) loop lives
        exact ⟨o', rfl, cfg.trans same, last⟩

end Live

/-- The residual of a view depends on the allocations and on the fills its owner has seen. -/
theorem viewResidual_congr {cfg : OwnerConfig} {b c : Book}
    (allocations : c.allocations = b.allocations)
    (seen : ∀ v ∈ cfg.viewKeys, (c.views v).seenSourceFills = (b.views v).seenSourceFills)
    (v : ViewKey) :
    cfg.viewResidual c v = cfg.viewResidual b v := by
  have owner (fillKey : String) : cfg.viewOfFill c fillKey = cfg.viewOfFill b fillKey := by
    unfold OwnerConfig.viewOfFill
    rw [List.find?_congr]
    intro w known
    rw [seen w (List.mem_reverse.1 known)]
  unfold OwnerConfig.viewResidual OwnerConfig.routeBalances
  rw [allocations]
  simp only [owner]

/-- `rounding_residual_ounces` of a view. -/
def roundingResidual (store : BusinessStore) (v : ViewKey) : ℚ :=
  match store with
  | .standalone store => store.memory.roundingResidual
  | .owner o _ => o.cfg.viewResidual o.book v

def allocations : BusinessStore → List Allocation
  | .standalone _ => []
  | .owner o _ => o.book.allocations

/-- A store whose suffix was projected, beside the same store where the suffix came in live. -/
structure Agrees (reason : String) (keys : List String)
    (store live held : BusinessStore) : Prop where
  mirrors : ∀ v ∈ store.viewKeys, Mirrors keys (live.view v) (held.view v)
  allocations : allocations held = allocations live
  residual : ∀ v ∈ store.viewKeys, roundingResidual held v = roundingResidual live v
  halted : ∀ v ∈ store.viewKeys, (held.view v).haltReason =
    some ((store.view v).haltReason.getD reason)
  frozen : ∀ v ∈ store.viewKeys,
    (held.view v).sourceFreezeReason = some ((store.view v).sourceFreezeReason.getD reason)
  active : ∀ v ∈ store.viewKeys, (held.view v).activeSourceOrderId =
    (store.view v).activeSourceOrderId

section Agreement

variable {digest : String → String} {reason : String} {store store' : BusinessStore}
  {orders : List Order}
  {route : NativeRoute} {facts : Facts} {entry : String × (ViewKey × SourceOrderRecord)}
  {taken : List (SourceFill × ℤ)} (due : DueSuffix store orders route facts entry)

include due

theorem DueSuffix.unclaimed {v : ViewKey} (known : v ∈ store.viewKeys) {intent : HedgeIntent}
    (held : intent ∈ (store.view v).hedgeIntents.values) :
    intent.fillKey ∉ (dueFills store (byId orders) entry).map (·.fillKey) := by
  intro listed
  obtain ⟨fill, member, same⟩ := List.mem_map.1 listed
  obtain ⟨native, lacks, rfl⟩ := List.mem_map.1 member
  exact due.gathered.unclaimed due.member lacks known held same.symm

omit due in
/-- What the projection leaves of every view's holds. -/
theorem Published.holds
    (after : Published digest reason entry.2.1 (dueFills store (byId orders) entry)
      taken store store')
    {v : ViewKey} (known : v ∈ store.viewKeys) :
    (store'.view v).haltReason = some ((store.view v).haltReason.getD reason) ∧
      (store'.view v).sourceFreezeReason = some ((store.view v).sourceFreezeReason.getD reason) ∧
      (store'.view v).activeSourceOrderId = (store.view v).activeSourceOrderId := by
  by_cases here : v = entry.2.1
  · subst here
    obtain ⟨active, halt, freeze, -⟩ := after.view.same
    exact ⟨halt, freeze, active⟩
  · rw [after.others v known here]
    exact ⟨rfl, rfl, rfl⟩

omit due in
theorem publish_standalone_eq_ok {store : JsonStateStore} {v : ViewKey} {suffix : List SourceFill}
    {pub : Publication}
    (h : publish digest (.standalone store) reason v suffix pub = (.ok (), store')) :
    ∃ t, suffix.foldlM
      (fun t fill => Prod.fst <$> StoreState.applySourceFill digest t fill (some reason))
      (store.memory.hold reason) = .ok t ∧ store' = .standalone ⟨t, t⟩ := by
  unfold publish at h
  dsimp only at h
  obtain ⟨result, stored⟩ := Prod.mk.inj h
  unfold StoreState.projectSourceFills at result stored
  split at result
  · cases result
  · rename_i t folded
    rw [folded] at stored
    cases pub with
    | failed | parentSyncFailed => cases result
    | published => exact ⟨t, folded, stored.symm⟩

/-- Holding a view leaves everything a fill changes as it was. -/
theorem DueSuffix.mirrors_hold {v : ViewKey} (known : v ∈ store.viewKeys) :
    Mirrors ((dueFills store (byId orders) entry).map (·.fillKey)) (store.view v)
      ((store.view v).hold reason) := by
  have same := Mirrors.refl fun intent held => due.unclaimed known held
  exact ⟨same.orders, same.seen, same.seenHedges, same.net, same.intents⟩

/-- A standalone store takes live every suffix it takes from a projection. -/
theorem DueSuffix.lives {alone : JsonStateStore} {pub : Publication}
    (same : store = .standalone alone)
    (h : publish digest store reason entry.2.1 (dueFills store (byId orders) entry) pub =
      (.ok (), store')) :
    ∃ last, live digest store entry.2.1 (dueFills store (byId orders) entry) =
      .ok (.standalone last) ∧
      store' = .standalone ⟨store'.view .taker, store'.view .taker⟩ ∧
      Mirrors ((dueFills store (byId orders) entry).map (·.fillKey)) last.memory
        (store'.view .taker) := by
  subst same
  obtain ⟨t, folded, rfl⟩ := publish_standalone_eq_ok h
  have start : Mirrors ((dueFills (.standalone alone) (byId orders) entry).map (·.fillKey))
    alone.memory
      (alone.memory.hold reason) :=
    due.mirrors_hold (List.mem_singleton_self ViewKey.taker)
  obtain ⟨last, gone, mirrors⟩ :=
    live_standalone (fun fill member => List.mem_map_of_mem member) entry.2.1 start folded
  exact ⟨last, gone, rfl, mirrors⟩

omit due in
theorem DueSuffix.ownerMirrors_hold {o : MakerStateStore} {instruments : Instruments}
    (due : DueSuffix (.owner o instruments) orders route facts entry) (reason : String) :
    OwnerMirrors ((dueFills (.owner o instruments) (byId orders) entry).map (·.fillKey)) o
      (o.holdViews reason) := by
  refine ⟨rfl, rfl, ?_⟩
  intro w known
  rw [view_holdViews known]
  exact due.mirrors_hold known

/-- A live run of the suffix that goes through ends where the projection does. -/
theorem DueSuffix.agrees {pub : Publication} {last : BusinessStore}
    (h : publish digest store reason entry.2.1 (dueFills store (byId orders) entry) pub =
      (.ok (), store'))
    (lives : live digest store entry.2.1 (dueFills store (byId orders) entry) = .ok last) :
    Agrees reason ((dueFills store (byId orders) entry).map (·.fillKey)) store last store' := by
  obtain ⟨taken, after⟩ := due.published h
  have known := (mem_recordEntries.1 due.member).1
  have listed : ∀ fill ∈ dueFills store (byId orders) entry,
      fill.fillKey ∈ (dueFills store (byId orders) entry).map (·.fillKey) :=
    fun fill member => List.mem_map_of_mem member
  have holds := fun {v : ViewKey} (member : v ∈ store.viewKeys) => after.holds member
  cases store with
  | standalone store =>
    obtain ⟨taken, gone, stored, mirrors⟩ := due.lives rfl h
    obtain rfl := Except.ok.inj (gone.symm.trans lives)
    rw [stored]
    refine ⟨fun v _ => mirrors, rfl, fun v _ => mirrors.net, ?_, ?_, ?_⟩
    · exact fun v member => List.mem_singleton.1 member ▸ (holds (List.mem_singleton_self _)).1
    · exact fun v member => List.mem_singleton.1 member ▸ (holds (List.mem_singleton_self _)).2.1
    · exact fun v member => List.mem_singleton.1 member ▸ (holds (List.mem_singleton_self _)).2.2
  | owner o instruments =>
    unfold publish at h
    dsimp only at h
    cases outcome : o.transact pub (o.projectSourceFills digest entry.2.1 reason
        (dueFills (.owner o instruments) (byId orders) entry)) with
    | mk result final =>
      rw [outcome] at h
      cases h
      obtain ⟨changed, projected, persisted⟩ := transact_eq_ok outcome
      obtain ⟨views, cfg, allocations, -⟩ := persist_eq_ok persisted
      obtain ⟨o', rfl, same, mirrors⟩ :=
        live_owner listed (due.ownerMirrors_hold reason) known projected lives
      have each := mirrors.views
      rw [same, ← views] at each
      refine ⟨each, allocations.trans mirrors.allocations, ?_, fun v member => (holds member).1,
        fun v member => (holds member).2.1, fun v member => (holds member).2.2⟩
      intro v member
      unfold roundingResidual
      dsimp only
      rw [cfg.trans mirrors.cfg]
      apply viewResidual_congr (allocations.trans mirrors.allocations)
      intro w member'
      exact (each w (same ▸ member')).seen

end Agreement

/-- A suffix that startup projects ends where it ends live: the same fills, records, residuals,
allocations and obligations, the new ones BLOCKED and every hold and the active order kept. A
standalone store takes it live too. -/
theorem projection_agrees_with_live {digest : String → String} {store store' : BusinessStore}
    {orders : List Order}
    {route : NativeRoute} {reason : String} {pub : Publication} {n : ℕ}
    (h : projectSourceFills digest store orders route reason pub = (.ok n, store'))
    (some' : n ≠ 0) :
    ∃ v suffix, dueSuffix store orders route reason = .ok (some (v, suffix)) ∧ suffix.length = n ∧
      (∀ last, live digest store v suffix = .ok last →
        Agrees reason (suffix.map (·.fillKey)) store last store') ∧
      ∀ alone, store = .standalone alone → ∃ last, live digest store v suffix = .ok last := by
  obtain ⟨v, suffix, found, length, published⟩ := projectSourceFills_eq_ok h some'
  obtain ⟨-, facts, entry, -, due, rfl, rfl⟩ := dueSuffix_eq_ok found
  refine ⟨_, _, found, length.symm, fun last lives => due.agrees published lives, ?_⟩
  intro alone same
  obtain ⟨last, lives, -⟩ := due.lives same published
  exact ⟨_, lives⟩

theorem projection_agrees_with_live_threeTrades : ∃ last store',
    live id firstTrade .bid lateTrades = .ok last ∧
      Agrees "RECOVERY" (lateTrades.map (·.fillKey)) firstTrade last store' := by
  let result := projectSourceFills id firstTrade threeTrades threeTradesRoute "RECOVERY" .published
  have adds : result.1 = .ok 2 := by decide +kernel
  have same : result = (.ok 2, result.2) := Prod.ext adds rfl
  have gone : (live id firstTrade .bid lateTrades).toOption.isSome = true := by decide +kernel
  obtain ⟨v, suffix, found, -, agrees, -⟩ := projection_agrees_with_live same (by decide)
  cases dueSuffix_threeTrades.symm.trans found
  cases lives : live id firstTrade .bid lateTrades with
  | error e => rw [lives] at gone; cases gone
  | ok last => exact ⟨last, result.2, rfl, agrees last lives⟩

end ArbNautilus.Store.SourceProjection
