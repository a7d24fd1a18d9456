import ArbNautilus.Base.Alike
import ArbNautilus.Store.Conservation
import Mathlib.Data.List.Perm.Basic

/-! The order in which the maps of a state were filled decides nothing that is validated. -/

namespace ArbNautilus.Store

open Base

/-- The same state, its maps filled in whatever order. -/
structure StoreState.Alike (s t : StoreState) : Prop where
  sourceOrders : Dict.Alike s.sourceOrders t.sourceOrders
  activeSourceOrderId : s.activeSourceOrderId = t.activeSourceOrderId
  seenSourceFills : s.seenSourceFills = t.seenSourceFills
  seenHedgeFills : s.seenHedgeFills = t.seenHedgeFills
  hedgeIntents : Dict.Alike s.hedgeIntents t.hedgeIntents
  netUnhedgedOunces : s.netUnhedgedOunces = t.netUnhedgedOunces
  haltReason : s.haltReason = t.haltReason
  sourceFreezeReason : s.sourceFreezeReason = t.sourceFreezeReason

structure Book.Alike (b c : Book) : Prop where
  views : ∀ v, (b.views v).Alike (c.views v)
  allocations : b.allocations = c.allocations
  cycleFreezeOnly : b.cycleFreezeOnly = c.cycleFreezeOnly

theorem StoreState.Alike.symm {s t : StoreState} (h : s.Alike t) : t.Alike s :=
  ⟨h.sourceOrders.symm, h.activeSourceOrderId.symm, h.seenSourceFills.symm, h.seenHedgeFills.symm,
    h.hedgeIntents.symm, h.netUnhedgedOunces.symm, h.haltReason.symm, h.sourceFreezeReason.symm⟩

theorem Book.Alike.symm {b c : Book} (h : b.Alike c) : c.Alike b :=
  ⟨fun v => (h.views v).symm, h.allocations.symm, h.cycleFreezeOnly.symm⟩

namespace OwnerConfig

section Views

variable {s t : StoreState} {side : Option BusinessOrderSide}

theorem checkRecord_perm {entries entries' : List (String × SourceOrderRecord)}
    (perm : entries.Perm entries') {ids ids' : Identities}
    (loop : entries.foldlM (checkRecord side) ids = .ok ids') :
    entries'.foldlM (checkRecord side) ids = .ok ids' := by
  obtain ⟨reached, loop', rfl⟩ := @foldlM_perm _ _ _ (checkRecord side) (fun a b => a = b)
    (fun _ => rfl) (fun _ _ _ => Eq.trans)
    (by
      rintro u _ a v rfl first
      exact ⟨v, first, rfl⟩)
    (by
      intro u a b v w first second
      simp only [checkRecord, bind_unit_eq_ok, raiseIf_eq_ok, pure_eq_ok, not_or, not_not,
        not_exists, not_and] at first second ⊢
      obtain ⟨⟨named, nonempty, fresh⟩, sided, rfl⟩ := first
      obtain ⟨⟨named', nonempty', fresh'⟩, sided', rfl⟩ := second
      simp only [Finset.mem_insert, not_or] at fresh'
      refine ⟨_, _, ⟨⟨named', nonempty', fresh'.2⟩, sided', rfl⟩,
        ⟨⟨named, nonempty, ?_⟩, sided, rfl⟩, ?_⟩
      · simp only [Finset.mem_insert, not_or]
        exact ⟨Ne.symm fresh'.1, fresh⟩
      · simp only [Finset.insert_comm])
    _ _ perm ids ids ids' rfl loop
  exact loop'

theorem sourceTrade_alike (h : Dict.Alike s.sourceOrders t.sourceOrders) :
    sourceTrade s = sourceTrade t := by
  funext fillKey
  simp only [sourceTrade, h _]

theorem hedgeTrade_alike {accounts accounts' : Dict String (Option String)}
    (h : Dict.Alike accounts accounts') : hedgeTrade accounts = hedgeTrade accounts' := by
  funext fillKey
  simp only [hedgeTrade, h _]

theorem checkIntent_alike (orders : Dict.Alike s.sourceOrders t.sourceOrders)
    (fills : s.seenSourceFills = t.seenSourceFills) : checkIntent s side = checkIntent t side := by
  funext acc entry
  simp only [checkIntent, orders _, fills]

/-- The accounts after the orders of one intent. -/
theorem get?_accounts (named : List String) (account : Option String)
    (accounts : Dict String (Option String)) (k : String) :
    (named.foldl (fun accounts order => accounts.set order account) accounts).get? k =
      if k ∈ named then some account else accounts.get? k := by
  induction named generalizing accounts with
  | nil => simp
  | cons order named ih =>
    rw [List.foldl_cons, ih, Dict.get?_set]
    by_cases later : k ∈ named
    · simp [later]
    · by_cases same : order = k
      · simp [same]
      · simp [later, same, Ne.symm same]

theorem mem_heldOrders {intent : HedgeIntent} {order : String} :
    order ∈ heldOrders intent ↔
      order ∈ intent.hedgeOrderIds ++ intent.hedgeClientOrderId.toList := by
  simp [heldOrders]

/-- What a turn over the intents asks of an intent by itself; `account` is its source order's. -/
def Fits (s : StoreState) (side : Option BusinessOrderSide) (entry : String × HedgeIntent)
    (account : Option String) : Prop :=
  entry.1 = entry.2.intentId ∧ (∀ expected ∈ side, entry.2.sourceSide = expected) ∧
    ∃ record, s.sourceOrders.get? entry.2.sourceClientOrderId = some record ∧
      entry.2.fillKey ∈ s.seenSourceFills ∧ entry.2.sourceSide = record.side ∧
      ((splitText '|' entry.2.fillKey)[0]? = some entry.2.sourceClientOrderId ∧
        (splitText '|' entry.2.fillKey)[2]? = some entry.2.sourceTradeId) ∧
      record.hedgeAccountId = account

/-- What the walk over the intents has met after one more. -/
def metIntent (acc : Identities × Dict String (Option String)) (entry : String × HedgeIntent)
    (account : Option String) : Identities × Dict String (Option String) :=
  ({ acc.1 with
      intentIds := insert entry.1 acc.1.intentIds
      hedgeIds := acc.1.hedgeIds ∪ heldOrders entry.2 },
    (entry.2.hedgeOrderIds ++ entry.2.hedgeClientOrderId.toList).foldl
      (fun accounts order => accounts.set order account) acc.2)

theorem checkIntent_eq_ok {acc acc' : Identities × Dict String (Option String)}
    {entry : String × HedgeIntent} :
    checkIntent s side acc entry = .ok acc' ↔ ∃ account, Fits s side entry account ∧
      entry.1 ∉ acc.1.intentIds ∧ Disjoint acc.1.hedgeIds (heldOrders entry.2) ∧
      metIntent acc entry account = acc' := by
  simp only [checkIntent, bind_unit_eq_ok, raiseIf_eq_ok, not_or, not_not, not_exists, not_and]
  constructor
  · rintro ⟨⟨keyed, fresh⟩, sided, turn⟩
    split at turn
    · cases turn
    · rename_i record found
      simp only [bind_unit_eq_ok, raiseIf_eq_ok, pure_eq_ok, not_or, not_not] at turn
      obtain ⟨seen, same, parts, apart, met⟩ := turn
      exact ⟨record.hedgeAccountId, ⟨keyed, sided, record, found, seen, same, parts, rfl⟩, fresh,
        apart, met⟩
  · rintro ⟨account, ⟨keyed, sided, record, found, seen, same, parts, rfl⟩, fresh, apart, met⟩
    refine ⟨⟨keyed, fresh⟩, sided, ?_⟩
    rw [found]
    simp only [bind_unit_eq_ok, raiseIf_eq_ok, pure_eq_ok, not_or, not_not]
    exact ⟨seen, same, parts, apart, met⟩

/-- The identities met so far, and the accounts as a map. -/
def SameWalk (acc acc' : Identities × Dict String (Option String)) : Prop :=
  acc.1 = acc'.1 ∧ Dict.Alike acc.2 acc'.2

theorem metIntent_same {acc acc' : Identities × Dict String (Option String)} (h : SameWalk acc acc')
    (entry : String × HedgeIntent) (account : Option String) :
    SameWalk (metIntent acc entry account) (metIntent acc' entry account) := by
  constructor
  · simp only [metIntent, h.1]
  · intro k
    simp only [metIntent, get?_accounts, h.2 k]

theorem metIntent_comm (acc : Identities × Dict String (Option String))
    {one two : String × HedgeIntent} {account account' : Option String}
    (apart : Disjoint (heldOrders one.2) (heldOrders two.2)) :
    SameWalk (metIntent (metIntent acc one account) two account')
      (metIntent (metIntent acc two account') one account) := by
  constructor
  · simp only [metIntent, Identities.mk.injEq, true_and, and_true]
    exact ⟨Finset.insert_comm _ _ _, Finset.union_right_comm _ _ _⟩
  · intro k
    simp only [metIntent, get?_accounts]
    by_cases first : k ∈ one.2.hedgeOrderIds ++ one.2.hedgeClientOrderId.toList
    · have other : k ∉ two.2.hedgeOrderIds ++ two.2.hedgeClientOrderId.toList := by
        rw [← mem_heldOrders] at first ⊢
        exact Finset.disjoint_left.1 apart first
      rw [if_neg other, if_pos first, if_pos first]
    · rw [if_neg first, if_neg first]

theorem checkIntent_perm {entries entries' : List (String × HedgeIntent)}
    (perm : entries.Perm entries') {acc reached : Identities × Dict String (Option String)}
    (loop : entries.foldlM (checkIntent s side) acc = .ok reached) :
    ∃ reached', entries'.foldlM (checkIntent s side) acc = .ok reached' ∧
      SameWalk reached reached' := by
  apply foldlM_perm _ _ _ _ perm _ loop
  · exact fun acc => ⟨rfl, Dict.Alike.refl _⟩
  · exact fun _ _ _ h h' => ⟨h.1.trans h'.1, h.2.trans h'.2⟩
  · intro acc acc' entry next same turn
    obtain ⟨account, fits, fresh, apart, rfl⟩ := checkIntent_eq_ok.1 turn
    rw [same.1] at fresh apart
    exact ⟨_, checkIntent_eq_ok.2 ⟨account, fits, fresh, apart, rfl⟩,
      metIntent_same same entry account⟩
  · intro acc one two next last first second
    obtain ⟨account, fits, fresh, apart, rfl⟩ := checkIntent_eq_ok.1 first
    obtain ⟨account', fits', fresh', apart', rfl⟩ := checkIntent_eq_ok.1 second
    simp only [metIntent, Finset.mem_insert, not_or] at fresh'
    simp only [metIntent, Finset.disjoint_union_left] at apart'
    refine ⟨_, _, checkIntent_eq_ok.2 ⟨account', fits', fresh'.2, apart'.1, rfl⟩,
      checkIntent_eq_ok.2 ⟨account, fits, ?_, ?_, rfl⟩, metIntent_comm acc apart'.2⟩
    · simp only [metIntent, Finset.mem_insert, not_or]
      exact ⟨Ne.symm fresh'.1, fresh⟩
    · simp only [metIntent, Finset.disjoint_union_left]
      exact ⟨apart, apart'.2.symm⟩
  · exact ⟨rfl, Dict.Alike.refl _⟩

theorem checkView_alike {b c : Book} {v : ViewKey} (h : (b.views v).Alike (c.views v))
    {ids ids' : Identities} (checked : checkView b ids v = .ok ids') :
    checkView c ids v = .ok ids' := by
  have sources := sourceTrade_alike h.sourceOrders
  have intent := @checkIntent_alike _ _ (viewSide v) h.sourceOrders h.seenSourceFills
  unfold checkView at checked ⊢
  simp only [bind_eq_ok, raiseIf_eq_ok, pure_eq_ok, exists_const] at checked ⊢
  obtain ⟨active, net, walked, records, fresh, trades, traded, ⟨reached, accounts⟩, intents, hedged,
    hedges, rfl⟩ := checked
  obtain ⟨⟨reached', accounts'⟩, intents', same, accounts_same⟩ :=
    checkIntent_perm h.hedgeIntents.perm intents
  simp only at same accounts_same
  subst same
  rw [hedgeTrade_alike accounts_same] at hedges
  rw [intent] at intents'
  rw [sources] at traded
  simp only [← h.activeSourceOrderId, ← h.netUnhedgedOunces, ← h.seenSourceFills,
    ← h.seenHedgeFills, ← h.sourceOrders _]
  exact ⟨active, net, walked, checkRecord_perm h.sourceOrders.perm records, fresh, trades, traded,
    (reached, accounts'), intents', hedged, hedges, rfl⟩

theorem checkRecord_intents {entries : List (String × SourceOrderRecord)} {ids ids' : Identities}
    (loop : entries.foldlM (checkRecord side) ids = .ok ids') : ids'.intentIds = ids.intentIds := by
  apply foldlM_invariant (P := fun reached : Identities => reached.intentIds = ids.intentIds) _
    rfl loop
  intro u entry v kept turn
  simp only [checkRecord, bind_unit_eq_ok, raiseIf_eq_ok, pure_eq_ok] at turn
  obtain ⟨-, -, rfl⟩ := turn
  exact kept

theorem checkIntent_met {entries : List (String × HedgeIntent)}
    {acc reached : Identities × Dict String (Option String)}
    (loop : entries.foldlM (checkIntent s side) acc = .ok reached) :
    reached.1.intentIds = acc.1.intentIds ∪ (entries.map Prod.fst).toFinset ∧
      ∀ entry ∈ entries, entry.1 ∉ acc.1.intentIds := by
  induction entries generalizing acc with
  | nil =>
    simp only [List.foldlM_nil, pure_eq_ok] at loop
    simp [loop]
  | cons entry entries ih =>
    simp only [List.foldlM_cons, bind_eq_ok] at loop
    obtain ⟨next, turn, loop⟩ := loop
    obtain ⟨account, -, fresh, -, rfl⟩ := checkIntent_eq_ok.1 turn
    obtain ⟨grown, rest⟩ := ih loop
    simp only [metIntent] at grown rest
    constructor
    · rw [grown, List.map_cons, List.toFinset_cons, Finset.insert_union, Finset.union_insert]
    · intro other member
      obtain rfl | later := List.mem_cons.1 member
      · exact fresh
      · exact fun old => rest other later (Finset.mem_insert_of_mem old)

theorem checkView_met {b : Book} {v : ViewKey} {ids ids' : Identities}
    (checked : checkView b ids v = .ok ids') :
    ids'.intentIds = ids.intentIds ∪ (b.views v).hedgeIntents.keys.toFinset ∧
      ∀ entry ∈ (b.views v).hedgeIntents.entries, entry.1 ∉ ids.intentIds := by
  unfold checkView at checked
  simp only [bind_eq_ok, raiseIf_eq_ok, pure_eq_ok, exists_const] at checked
  obtain ⟨-, -, walked, records, -, _, -, ⟨reached, accounts⟩, intents, _, -, rfl⟩ := checked
  have met := checkIntent_met intents
  simp only [checkRecord_intents records] at met
  exact met

/-- No intent is in two views. -/
theorem views_met {b : Book} {views : List ViewKey} {ids ids' : Identities}
    (loop : views.foldlM (checkView b) ids = .ok ids') :
    ((views.flatMap fun v => (b.views v).hedgeIntents.entries).map Prod.fst).Nodup ∧
      ∀ v ∈ views, ∀ entry ∈ (b.views v).hedgeIntents.entries, entry.1 ∉ ids.intentIds := by
  induction views generalizing ids with
  | nil => simp
  | cons v views ih =>
    simp only [List.foldlM_cons, bind_eq_ok] at loop
    obtain ⟨next, turn, loop⟩ := loop
    obtain ⟨grown, fresh⟩ := checkView_met turn
    obtain ⟨nodup, rest⟩ := ih loop
    constructor
    · rw [List.flatMap_cons, List.map_append]
      apply (b.views v).hedgeIntents.nodup.append nodup
      intro id here there
      obtain ⟨entry, member, rfl⟩ := List.mem_map.1 there
      obtain ⟨other, known, member⟩ := List.mem_flatMap.1 member
      apply rest other known entry member
      rw [grown]
      exact Finset.mem_union_right _ (List.mem_toFinset.2 here)
    · intro other known entry member
      obtain rfl | known := List.mem_cons.1 known
      · exact fresh entry member
      · exact fun old => rest other known entry member (grown ▸ Finset.mem_union_left _ old)

end Views

section Allocations

variable {cfg : OwnerConfig} {b c : Book}

theorem seenFills_alike (h : b.Alike c) : cfg.seenFills b = cfg.seenFills c := by
  simp only [seenFills, (h.views _).seenSourceFills]

theorem records_alike (h : b.Alike c) (recorded : Recorded cfg b) :
    Dict.Alike (cfg.records b) (cfg.records c) := by
  have nodup := (cfg.records b).nodup
  rw [recorded.entries] at nodup
  exact Dict.alike_ofList
    (List.Perm.flatMap_left _ fun v _ => (h.views v).sourceOrders.perm) nodup

theorem intents_perm (h : b.Alike c) :
    (cfg.viewKeys.flatMap fun v => (b.views v).hedgeIntents.values.map fun intent =>
      (intent.fillKey, intent)).Perm
    (cfg.viewKeys.flatMap fun v => (c.views v).hedgeIntents.values.map fun intent =>
      (intent.fillKey, intent)) :=
  List.Perm.flatMap_left _ fun v _ => (h.views v).hedgeIntents.values.map _

theorem intentsByFill_alike (h : b.Alike c)
    (entries : (cfg.intentsByFill b).entries = cfg.viewKeys.flatMap fun v =>
      (b.views v).hedgeIntents.values.map fun intent => (intent.fillKey, intent)) :
    Dict.Alike (cfg.intentsByFill b) (cfg.intentsByFill c) := by
  have nodup := (cfg.intentsByFill b).nodup
  rw [entries] at nodup
  exact Dict.alike_ofList (intents_perm h) nodup

theorem intentIds_nodup (recorded : Recorded cfg b)
    (entries : (cfg.intentsByFill b).entries = cfg.viewKeys.flatMap fun v =>
      (b.views v).hedgeIntents.values.map fun intent => (intent.fillKey, intent))
    (distinct : ((cfg.viewKeys.flatMap fun v =>
      (b.views v).hedgeIntents.entries).map Prod.fst).Nodup) :
    (((cfg.intentsByFill b).values.map fun intent => (intent.intentId, intent)).map
      Prod.fst).Nodup := by
  have ids : ((cfg.intentsByFill b).values.map fun intent => (intent.intentId, intent)).map
      Prod.fst =
        (cfg.viewKeys.flatMap fun v => (b.views v).hedgeIntents.entries).map Prod.fst := by
    rw [Dict.values, entries]
    simp only [List.map_flatMap, List.map_map, Dict.values]
    apply List.flatMap_congr
    intro v known
    apply List.map_congr_left
    intro entry member
    exact recorded.keyed v known entry.1 entry.2
      (((b.views v).hedgeIntents.mem_entries_iff _ _).1 member)
  rw [ids]
  exact distinct

/-- The intents by their identities, of which no two views share one. -/
theorem byId_alike (h : b.Alike c) (recorded : Recorded cfg b)
    (entries : (cfg.intentsByFill b).entries = cfg.viewKeys.flatMap fun v =>
      (b.views v).hedgeIntents.values.map fun intent => (intent.fillKey, intent))
    (distinct : ((cfg.viewKeys.flatMap fun v =>
      (b.views v).hedgeIntents.entries).map Prod.fst).Nodup) :
    Dict.Alike
      (Dict.ofList ((cfg.intentsByFill b).values.map fun intent => (intent.intentId, intent)))
      (Dict.ofList ((cfg.intentsByFill c).values.map fun intent => (intent.intentId, intent))) := by
  apply Dict.alike_ofList
  · exact (intentsByFill_alike h entries).values.map _
  · exact intentIds_nodup recorded entries distinct

theorem checkLegacyIntent_alike {byId byId' : Dict String HedgeIntent} (ids : Dict.Alike byId byId')
    {item : LegacyOrder} {acc acc' t : Dict String HedgeIntent × ℚ × ℚ}
    (same : Dict.Alike acc.1 acc'.1 ∧ acc.2 = acc'.2) {intentId : String}
    (turn : checkLegacyIntent byId item acc intentId = .ok t) :
    ∃ t', checkLegacyIntent byId' item acc' intentId = .ok t' ∧ Dict.Alike t.1 t'.1 ∧
      t.2 = t'.2 := by
  obtain ⟨intents, known, allocated⟩ := acc
  obtain ⟨intents', known', allocated'⟩ := acc'
  obtain ⟨alike, rest⟩ := same
  simp only [Prod.mk.injEq] at rest
  obtain ⟨rfl, rfl⟩ := rest
  simp only at alike
  simp only [checkLegacyIntent, ids _] at turn ⊢
  split at turn
  · cases turn
  · simp only [bind_unit_eq_ok, raiseIf_eq_ok, pure_eq_ok, alike _] at turn ⊢
    obtain ⟨fits, rfl⟩ := turn
    exact ⟨_, ⟨fits, rfl⟩, alike.erase _, rfl⟩

/-- The same progress, the waiting intents in any order. -/
structure Tally.Alike (t u : Tally) : Prop where
  allocated : t.allocated = u.allocated
  totals : t.totals = u.totals
  balances : t.balances = u.balances
  intents : Dict.Alike t.intents u.intents

theorem checkLegacyOrder_alike (h : b.Alike c)
    (records : Dict.Alike (cfg.records b) (cfg.records c))
    {byId byId' : Dict String HedgeIntent} (ids : Dict.Alike byId byId') {t u t' : Tally}
    (same : t.Alike u) {item : LegacyOrder} (turn : cfg.checkLegacyOrder b byId t item = .ok t') :
    ∃ u', cfg.checkLegacyOrder c byId' u item = .ok u' ∧ t'.Alike u' := by
  unfold checkLegacyOrder at turn ⊢
  dsimp only at turn ⊢
  rw [← records]
  split at turn
  · cases turn
  · simp only [bind_eq_ok, raiseIf_eq_ok, pure_eq_ok, exists_const] at turn ⊢
    obtain ⟨bound, fills, ⟨intents, known, allocated⟩, loop, exact', rfl⟩ := turn
    obtain ⟨⟨intents', known', allocated'⟩, loop', alike, rest⟩ :=
      @foldlM_simulates _ _ _ _ _ _ (checkLegacyIntent byId' item)
        (fun acc acc' => Dict.Alike acc.1 acc'.1 ∧ acc.2 = acc'.2) (fun a b => a = b)
        (by
          rintro acc acc' id _ next same rfl turn
          exact checkLegacyIntent_alike ids same turn)
        _ _ (List.forall₂_refl item.intentIds) _ _ (u.intents, 0, 0) ⟨same.intents, rfl⟩ loop
    simp only [Prod.mk.injEq] at rest alike
    obtain ⟨rfl, rfl⟩ := rest
    simp only [← same.allocated, ← same.totals, ← (h.views _).sourceOrders _]
    exact ⟨_, ⟨bound, fills, (intents', known, allocated), loop', exact', rfl⟩,
      ⟨rfl, rfl, same.balances, alike⟩⟩

theorem checkAllocation_alike (h : b.Alike c) (records : Dict.Alike (cfg.records b) (cfg.records c))
    {t u t' : Tally} (same : t.Alike u) {item : Allocation}
    (turn : cfg.checkAllocation b t item = .ok t') :
    ∃ u', cfg.checkAllocation c u item = .ok u' ∧ t'.Alike u' := by
  unfold checkAllocation at turn ⊢
  dsimp only at turn ⊢
  rw [← records, ← seenFills_alike h, ← same.allocated, ← same.totals, ← same.balances,
    ← same.intents]
  simp only [bind_unit_eq_ok, raiseIf_eq_ok] at turn ⊢
  obtain ⟨fresh, turn⟩ := turn
  have met := same.intents.erase item.fillKey
  split at turn
  · cases turn
  · simp only [bind_unit_eq_ok, raiseIf_eq_ok] at turn ⊢
    obtain ⟨fits, rounded, turn⟩ := turn
    split at turn
    · split at turn
      · rename_i unallocated
        rw [pure_eq_ok] at turn
        subst turn
        simp only [if_pos unallocated, pure_eq_ok]
        exact ⟨_, ⟨fresh, fits, rounded, rfl⟩, rfl, rfl, rfl, met⟩
      · cases turn
    · simp only [bind_unit_eq_ok, raiseIf_eq_ok, pure_eq_ok] at turn ⊢
      obtain ⟨allocated, owned, rfl⟩ := turn
      exact ⟨_, ⟨fresh, fits, rounded, allocated, owned, rfl⟩, rfl, rfl, rfl, met⟩

/-- Two walks over the same items, in step. -/
theorem tally_alike {α : Type} {f g : Tally → α → Except Raised Tally}
    (turn : ∀ t u item t', t.Alike u → f t item = .ok t' → ∃ u', g u item = .ok u' ∧ t'.Alike u')
    (items : List α) {t u t' : Tally} (same : t.Alike u) (loop : items.foldlM f t = .ok t') :
    ∃ u', items.foldlM g u = .ok u' ∧ t'.Alike u' := by
  apply foldlM_simulates (S := fun a b => a = b) _ (List.forall₂_refl items) same loop
  rintro t u item _ t' same rfl first
  exact turn t u item t' same first

theorem validateAllocations_alike (h : b.Alike c) (recorded : Recorded cfg b)
    (distinct : ((cfg.viewKeys.flatMap fun v =>
      (b.views v).hedgeIntents.entries).map Prod.fst).Nodup)
    (valid : cfg.validateAllocations b = .ok ()) : cfg.validateAllocations c = .ok () := by
  have records := records_alike h recorded
  unfold validateAllocations at valid ⊢
  rw [bind_unit_eq_ok, raiseIf_eq_ok, not_not] at valid ⊢
  obtain ⟨lengths, valid⟩ := valid
  have entries : (cfg.intentsByFill b).entries = cfg.viewKeys.flatMap fun v =>
      (b.views v).hedgeIntents.values.map fun intent => (intent.fillKey, intent) := by
    apply Dict.entries_ofList
    rw [intentsByFill] at lengths
    simpa [List.length_flatMap, Dict.values] using lengths
  have byFill := intentsByFill_alike h entries
  have ids := byId_alike h recorded entries distinct
  constructor
  · rw [← byFill.perm.length_eq, lengths]
    simp only [(h.views _).hedgeIntents.perm.length_eq]
  simp only [bind_eq_ok, raiseIf_eq_ok, not_or, not_not] at valid ⊢
  obtain ⟨checkpoint, legacy, t, allocations, seen, spent, totals⟩ := valid
  have opening : (cfg.openingTally b).Alike (cfg.openingTally c) := ⟨rfl, rfl, rfl, byFill⟩
  have order := fun t u item t' (same : t.Alike u) =>
    @checkLegacyOrder_alike cfg b c h records _ _ ids t u t' same item
  have allocation := fun t u item t' (same : t.Alike u) =>
    @checkAllocation_alike cfg b c h records t u t' same item
  obtain ⟨checkpoint', legacy', same⟩ := tally_alike order cfg.legacyOrders opening legacy
  obtain ⟨u, allocations', same'⟩ := tally_alike allocation b.allocations same allocations
  rw [h.allocations] at allocations'
  refine ⟨checkpoint', legacy', u, allocations', ?_, ?_, ?_⟩
  · rw [← same'.allocated, seen, seenFills_alike h]
  · have perm := same'.intents.perm
    rw [spent] at perm
    exact perm.nil_eq.symm
  · rintro ⟨entry, member, differs⟩
    apply totals
    refine ⟨entry, records.perm.mem_iff.2 member, ?_⟩
    rwa [same'.totals]

/-- What validates does so with its maps in any order. -/
theorem validate_alike (h : b.Alike c) (valid : cfg.validate b = .ok ()) :
    cfg.validate c = .ok () := by
  unfold validate at valid ⊢
  rw [bind_unit_eq_ok, bind_unit_eq_ok, bind_eq_ok] at valid ⊢
  obtain ⟨shared, frozen, ids, viewed, valid⟩ := valid
  rw [bind_unit_eq_ok] at valid
  simp only [h.cycleFreezeOnly, (h.views _).sourceFreezeReason] at frozen
  have viewed' : cfg.viewKeys.foldlM (checkView c) {} = .ok ids := by
    obtain ⟨ids', loop, rfl⟩ := @foldlM_simulates _ _ _ _ _ (checkView b) (checkView c)
      (fun a b => a = b) (fun a b => a = b)
      (by
        rintro ids _ v _ next rfl rfl turn
        exact ⟨next, checkView_alike (h.views v) turn, rfl⟩)
      _ _ (List.forall₂_refl cfg.viewKeys) _ _ {} rfl viewed
    exact loop
  refine ⟨shared, frozen, ids, viewed', ?_⟩
  rw [bind_unit_eq_ok]
  exact ⟨valid.1, validateAllocations_alike h (recorded_of_loop viewed) (views_met viewed).1
    valid.2⟩

end Allocations

end OwnerConfig

end ArbNautilus.Store
