import ArbNautilus.Store.Custody
import ArbNautilus.Store.Maker

namespace ArbNautilus.Store

open Base

namespace OwnerConfig

variable {cfg : OwnerConfig}

theorem get?_addBalance (balances : Balances) (r r' : Route) (amount : ℚ) (v : ViewKey) :
    (((addBalance balances r amount v).get? r').map Prod.fst).getD 0 =
      ((balances.get? r').map Prod.fst).getD 0 + if r = r' then amount else 0 := by
  rw [addBalance, Dict.get?_set]
  split
  · rename_i same
    subst same
    rfl
  · simp

theorem total_addBalance (balances : Balances) (r : Route) (amount : ℚ) (v : ViewKey) :
    (addBalance balances r amount v).total Prod.fst = balances.total Prod.fst + amount := by
  rw [addBalance, Dict.total_set]
  ring

/-- Every balance lies with one of the owner's views. -/
def HeldBy (cfg : OwnerConfig) (balances : Balances) : Prop :=
  ∀ r balance, balances.get? r = some balance → balance.2 ∈ cfg.viewKeys

theorem heldBy_addBalance {balances : Balances} (h : HeldBy cfg balances) (r : Route) (amount : ℚ)
    {v : ViewKey} (known : v ∈ cfg.viewKeys) : HeldBy cfg (addBalance balances r amount v) := by
  intro r' balance found
  rw [addBalance, Dict.get?_set] at found
  split at found
  · obtain rfl := Option.some.inj found
    exact known
  · exact h r' balance found

theorem bid_known (cfg : OwnerConfig) : ViewKey.bid ∈ cfg.viewKeys := by
  unfold viewKeys
  split <;> simp

theorem direction_known (cfg : OwnerConfig) (direction : SourceDirection) :
    direction.view ∈ cfg.viewKeys := by
  unfold viewKeys
  cases direction <;> split <;> simp [SourceDirection.view]

theorem viewOfFill_known (cfg : OwnerConfig) (b : Book) (fillKey : String) :
    cfg.viewOfFill b fillKey ∈ cfg.viewKeys := by
  unfold viewOfFill
  cases found : cfg.viewKeys.reverse.find? fun v => fillKey ∈ (b.views v).seenSourceFills with
  | none => exact cfg.bid_known
  | some v => exact List.mem_reverse.1 (List.mem_of_find?_eq_some found)

theorem viewKeys_nodup (cfg : OwnerConfig) : cfg.viewKeys.Nodup := by
  unfold viewKeys
  split <;> decide

theorem checkpointBalances_held (cfg : OwnerConfig) : HeldBy cfg cfg.checkpointBalances := by
  have held : ∀ (items : List LegacyOrder) (balances : Balances), HeldBy cfg balances →
      HeldBy cfg (items.foldl (fun balances item =>
        if item.filledOunces = 0 ∧ item.allocatedOunces = 0 then balances
        else addBalance balances item.route
          (item.filledOunces * item.direction.sign - item.allocatedOunces)
          item.direction.view) balances) := by
    intro items
    induction items with
    | nil => exact fun _ h => h
    | cons item items ih =>
      intro balances h
      refine ih _ ?_
      dsimp only
      split
      · exact h
      · exact heldBy_addBalance h _ _ (cfg.direction_known _)
  exact held _ _ (by intro r balance found; cases found)

theorem routeBalances_held (cfg : OwnerConfig) (b : Book) : HeldBy cfg (cfg.routeBalances b) := by
  unfold routeBalances
  have held : ∀ (items : List Allocation) (balances : Balances), HeldBy cfg balances →
      HeldBy cfg (items.foldl (fun balances item =>
        addBalance balances item.route (item.signedFillOunces - item.allocatedOunces)
          (cfg.viewOfFill b item.fillKey)) balances) := by
    intro items
    induction items with
    | nil => exact fun _ h => h
    | cons item items ih =>
      exact fun balances h => ih _ (heldBy_addBalance h _ _ (cfg.viewOfFill_known b _))
  exact held _ _ cfg.checkpointBalances_held

/-- What the migrated orders left unhedged. -/
def legacyNet (item : LegacyOrder) : ℚ :=
  item.filledOunces * item.direction.sign - item.allocatedOunces

def allocationNet (item : Allocation) : ℚ := item.signedFillOunces - item.allocatedOunces

theorem total_checkpointBalances (cfg : OwnerConfig) :
    cfg.checkpointBalances.total Prod.fst = (cfg.legacyOrders.map legacyNet).sum := by
  have walk : ∀ (items : List LegacyOrder) (balances : Balances),
      (items.foldl (fun balances item =>
        if item.filledOunces = 0 ∧ item.allocatedOunces = 0 then balances
        else addBalance balances item.route
          (item.filledOunces * item.direction.sign - item.allocatedOunces)
          item.direction.view) balances).total Prod.fst =
        balances.total Prod.fst + (items.map legacyNet).sum := by
    intro items
    induction items with
    | nil => simp
    | cons item items ih =>
      intro balances
      rw [List.foldl_cons, ih, List.map_cons, List.sum_cons]
      split
      · rename_i zero
        simp [legacyNet, zero]
      · rw [total_addBalance, legacyNet]
        ring
  have sorted := walk (cfg.legacyOrders.insertionSort legacyBefore) .empty
  rw [Dict.total_empty, zero_add] at sorted
  rw [checkpointBalances, sorted]
  exact ((List.perm_insertionSort legacyBefore cfg.legacyOrders).map legacyNet).sum_eq

/-- The balances are the net of everything recorded, whichever view holds them. -/
theorem total_routeBalances (cfg : OwnerConfig) (b : Book) :
    (cfg.routeBalances b).total Prod.fst =
      (cfg.legacyOrders.map legacyNet).sum + (b.allocations.map allocationNet).sum := by
  have walk : ∀ (items : List Allocation) (balances : Balances),
      (items.foldl (fun balances item =>
        addBalance balances item.route (item.signedFillOunces - item.allocatedOunces)
          (cfg.viewOfFill b item.fillKey)) balances).total Prod.fst =
        balances.total Prod.fst + (items.map allocationNet).sum := by
    intro items
    induction items with
    | nil => simp
    | cons item items ih =>
      intro balances
      rw [List.foldl_cons, ih, List.map_cons, List.sum_cons, total_addBalance, allocationNet]
      ring
  rw [routeBalances, walk, total_checkpointBalances]

def openingBalance (cfg : OwnerConfig) (r : Route) : ℚ :=
  ((cfg.checkpointBalances.get? r).map Prod.fst).getD 0

/-- A route's balance after some allocations: its opening and their net. -/
def balanceAfter (cfg : OwnerConfig) (items : List Allocation) (r : Route) : ℚ :=
  cfg.openingBalance r + ((items.filter (·.route = r)).map allocationNet).sum

theorem balanceAfter_concat (cfg : OwnerConfig) (items : List Allocation) (item : Allocation)
    (r : Route) : cfg.balanceAfter (items ++ [item]) r =
      cfg.balanceAfter items r + if item.route = r then allocationNet item else 0 := by
  unfold balanceAfter
  rw [List.filter_append, List.map_append, List.sum_append]
  by_cases hit : item.route = r
  · simp [hit]; ring
  · simp [hit]

theorem residual_eq_balanceAfter (cfg : OwnerConfig) (b : Book) (r : Route) :
    cfg.residual b r = cfg.balanceAfter b.allocations r := by
  have walk : ∀ (items : List Allocation) (balances : Balances),
      (((items.foldl (fun balances item =>
        addBalance balances item.route (item.signedFillOunces - item.allocatedOunces)
          (cfg.viewOfFill b item.fillKey)) balances).get? r).map Prod.fst).getD 0 =
        ((balances.get? r).map Prod.fst).getD 0 +
          ((items.filter (·.route = r)).map allocationNet).sum := by
    intro items
    induction items with
    | nil => simp
    | cons item items ih =>
      intro balances
      rw [List.foldl_cons, ih, get?_addBalance]
      by_cases hit : item.route = r
      · simp [hit, allocationNet]; ring
      · simp [hit]
  exact walk b.allocations cfg.checkpointBalances

theorem sum_viewResidual (cfg : OwnerConfig) (b : Book) :
    (cfg.viewKeys.map (cfg.viewResidual b)).sum = (cfg.routeBalances b).total Prod.fst := by
  have one : ∀ balance ∈ (cfg.routeBalances b).values,
      (cfg.viewKeys.map fun v => if balance.2 = v then balance.1 else 0).sum = balance.1 := by
    intro balance member
    obtain ⟨r, found⟩ := (Dict.mem_values_iff _ _).1 member
    have known := cfg.routeBalances_held b r balance found
    have nodup := cfg.viewKeys_nodup
    generalize cfg.viewKeys = keys at known nodup
    induction keys with
    | nil => cases known
    | cons v keys ih =>
      obtain ⟨fresh, nodup⟩ := List.nodup_cons.1 nodup
      rw [List.map_cons, List.sum_cons]
      by_cases hit : balance.2 = v
      · have rest : (keys.map fun v => if balance.2 = v then balance.1 else 0).sum = 0 := by
          apply List.sum_eq_zero
          intro x member
          obtain ⟨v', present, rfl⟩ := List.mem_map.1 member
          have apart : balance.2 ≠ v' := by
            intro same
            have : v = v' := hit.symm.trans same
            exact fresh (this ▸ present)
          exact if_neg apart
        rw [rest, if_pos hit, add_zero]
      · rw [if_neg hit, zero_add]
        exact ih ((List.mem_cons.1 known).resolve_left hit) nodup
  unfold viewResidual Dict.total
  generalize (cfg.routeBalances b).values = balances at one
  induction balances with
  | nil => simp
  | cons balance balances ih =>
    simp only [List.map_cons, List.sum_cons]
    rw [List.sum_map_add, one balance (by simp),
      ih fun other member => one other (by simp [member])]

end OwnerConfig

end ArbNautilus.Store
