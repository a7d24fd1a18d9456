import ArbNautilus.Store.WorstFill

namespace ArbNautilus.Store

open Base

/-- The largest single intent, apart from what a partitioned order hedges in all. -/
def makerHedgeQuantityBound (residual sourceQuantity : ℚ) (direction : SourceDirection)
    (oppositeWorking : Bool) : ℤ :=
  let signed := match direction with
    | .long => residual
    | .short => -residual
  let initial := if oppositeWorking then 1 / 2 else signed
  max 0 (roundHedgeOunces (initial + sourceQuantity))

/-- A fill of a working source order. -/
structure RoutedFill where
  record : SourceOrderRecord
  fillKey : String
  ounces : ℚ
  positive : 0 < ounces

namespace RoutedFill

/-- The fill as a change of the source position. -/
def signed (fill : RoutedFill) : ℚ := fill.record.side.sign * fill.ounces

/-- What the fills of one side add up to. -/
def total (side : BusinessOrderSide) (fills : List RoutedFill) : ℚ :=
  (fills.map fun fill => if fill.record.side = side then fill.ounces else 0).sum

theorem signed_buy {fill : RoutedFill} (side : fill.record.side = .buy) :
    fill.signed = fill.ounces := by
  simp [signed, side, BusinessOrderSide.sign]

theorem signed_sell {fill : RoutedFill} (side : fill.record.side = .sell) :
    fill.signed = -fill.ounces := by
  simp [signed, side, BusinessOrderSide.sign]

/-- Fills that fit the leaves of both sides. -/
theorem within {fills : List RoutedFill} {buyLeaves sellLeaves : ℚ}
    (buys : total .buy fills ≤ buyLeaves) (sells : total .sell fills ≤ sellLeaves) :
    Within (fills.map signed) buyLeaves sellLeaves := by
  have both : ((fills.map signed).filter (0 ≤ ·)).sum = total .buy fills ∧
      -((fills.map signed).filter (· < 0)).sum = total .sell fills := by
    clear buys sells
    induction fills with
    | nil => simp [total]
    | cons fill fills ih =>
      obtain ⟨bought, sold⟩ := ih
      have positive := fill.positive
      cases side : fill.record.side with
      | buy => simp [signed_buy side, positive.le, bought, sold, side, total]
      | sell =>
        simp only [total] at bought sold
        simp [signed_sell side, positive, bought, ← sold, side, total]
        ring
  exact ⟨both.1.trans_le buys, both.2.trans_le sells⟩

end RoutedFill

/-- The bound of a fill's own direction. -/
def singleBound (residual buyLeaves sellLeaves : ℚ) (fill : RoutedFill) : ℤ :=
  match fill.record.side with
  | .buy => makerHedgeQuantityBound residual buyLeaves .long (sellLeaves ≠ 0)
  | .sell => makerHedgeQuantityBound residual sellLeaves .short (buyLeaves ≠ 0)

/-- What the bounds promise of a run of fills. `ordered` are the hedges they allocate, SELL
positive, and `hedged` what was executed of them. -/
structure Carried (residual buyLeaves sellLeaves exposure buy sell : ℚ) (fills : List RoutedFill)
    (ordered : List ℤ) (hedged : List ℚ) : Prop where
  unhedged : |residual + (fills.map RoutedFill.signed).sum - hedged.sum| ≤ exposure
  delta : -sell ≤ -hedged.sum ∧ -hedged.sum ≤ buy
  single : ∀ (k : ℕ) fill n, fills[k]? = some fill → ordered[k]? = some n →
    |n| ≤ singleBound residual buyLeaves sellLeaves fill

theorem single_bounded {residual buyLeaves sellLeaves : ℚ} (small : |residual| ≤ 1 / 2)
    {fills : List RoutedFill}
    (within : Within (fills.map RoutedFill.signed) buyLeaves sellLeaves) {k : ℕ}
    {fill : RoutedFill} {n : ℤ} (filled : fills[k]? = some fill)
    (ordered : (emits residual (fills.map RoutedFill.signed))[k]? = some n) :
    |n| ≤ singleBound residual buyLeaves sellLeaves fill := by
  have arrival : (fills.map RoutedFill.signed)[k]? = some fill.signed := by
    rw [List.getElem?_map, filled, Option.map_some]
  have positive := fill.positive
  unfold singleBound makerHedgeQuantityBound roundHedgeOunces
  cases side : fill.record.side with
  | buy =>
    have signed := RoutedFill.signed_buy side
    obtain ⟨nonneg, most⟩ :=
      emit_bounds small within ordered arrival (by rw [signed]; exact positive.le)
    rw [abs_of_nonneg nonneg]
    simp only [decide_eq_true_eq]
    exact le_max_of_le_right most
  | sell =>
    have signed := RoutedFill.signed_sell side
    obtain ⟨nonpos, most⟩ := emit_bounds_neg small within ordered arrival (by rw [signed]; linarith)
    rw [abs_of_nonpos nonpos]
    simp only [decide_eq_true_eq]
    exact le_max_of_le_right most

/-- The carry budget holds for every partition and order of the fills, and however far
their hedges were executed. -/
theorem carry_budget_sound (cfg : OwnerConfig) (b : Book) (r : Route) {buyLeaves sellLeaves : ℚ}
    (small : |cfg.residual b r| ≤ 1 / 2) (buying : 0 ≤ buyLeaves) (selling : 0 ≤ sellLeaves) :
    ∃ exposure buy sell,
      makerCarryBounds (cfg.residual b r) buyLeaves sellLeaves = .ok (exposure, buy, sell) ∧
      ∀ fills : List RoutedFill, (∀ fill ∈ fills, route fill.record = r) →
        RoutedFill.total .buy fills ≤ buyLeaves → RoutedFill.total .sell fills ≤ sellLeaves →
        let ordered := (cfg.allocateAll b
          (fills.map fun fill => (fill.record, fill.fillKey, fill.signed))).2
        ∀ hedged, Executed ordered hedged →
          Carried (cfg.residual b r) buyLeaves sellLeaves exposure buy sell fills ordered
            hedged := by
  cases bounds : makerCarryBounds (cfg.residual b r) buyLeaves sellLeaves with
  | error e =>
    unfold makerCarryBounds at bounds
    split at bounds
    · rename_i invalid
      rcases invalid with large | negative
      · exact absurd small (not_le.2 large)
      · exact absurd (le_min buying selling) (not_le.2 negative)
    · cases bounds
  | ok carried =>
    obtain ⟨exposure, buy, sell⟩ := carried
    refine ⟨exposure, buy, sell, rfl, fun fills routed buys sells => ?_⟩
    intro ordered hedged executed
    have within := RoutedFill.within buys sells
    have allocated : ordered = emits (cfg.residual b r) (fills.map RoutedFill.signed) := by
      have all := (cfg.allocateAll_eq r b
        (fills.map fun fill => (fill.record, fill.fillKey, fill.signed)) (by
          intro routedFill member
          obtain ⟨fill, listed, rfl⟩ := List.mem_map.1 member
          exact routed fill listed)).1
      rw [List.map_map] at all
      exact all
    rw [allocated] at executed ⊢
    obtain ⟨exposed, low, high⟩ :=
      SharedSourceAdmission.carryBounds_sound bounds within executed
    exact ⟨exposed, ⟨by linarith, by linarith⟩, fun _ _ _ filled there =>
      single_bounded small within filled there⟩

/-- The residual of the shared accounts is zero, and fills on either side tip it in turn. -/
theorem carry_budget_sound_tipping : ∃ exposure buy sell fills,
    Carried 0 1 1 exposure buy sell fills [1, -1, 1] [1, -1, 1 / 2] := by
  let cfg := SharedSourceAdmission.carryOwner.cfg
  let book := SharedSourceAdmission.carryOwner.book
  let bid : SourceOrderRecord := (sharedRequest "O-1").record
  let ask := SharedSourceAdmission.carryAsk
  let fills : List RoutedFill := [⟨bid, "O-1|V-1|T-1", 3 / 5, by norm_num⟩,
    ⟨ask, "O-2|V-2|T-2", 1 / 5, by norm_num⟩, ⟨bid, "O-1|V-1|T-3", 1 / 5, by norm_num⟩]
  have zero : cfg.residual book SharedSourceAdmission.carryRoute = 0 := by decide +kernel
  obtain ⟨exposure, buy, sell, -, carried⟩ :=
    @carry_budget_sound cfg book SharedSourceAdmission.carryRoute 1 1
      (by rw [zero]; norm_num) (by norm_num) (by norm_num)
  have ordered : (cfg.allocateAll book
      (fills.map fun fill => (fill.record, fill.fillKey, fill.signed))).2 = [1, -1, 1] := by
    decide +kernel
  have executed : Executed [1, -1, 1] [1, -1, (1 / 2 : ℚ)] := by
    have half : PartOf (((1 : ℤ) : ℚ)) (1 / 2 : ℚ) := .inl (by norm_num)
    have all := Executed.whole (n := 1) (.whole (n := -1) (Executed.part [] half))
    simpa using all
  have bounded := carried fills (by decide +kernel) (by decide +kernel) (by decide +kernel)
    [1, -1, 1 / 2] (by rw [ordered]; exact executed)
  rw [ordered, zero] at bounded
  exact ⟨exposure, buy, sell, fills, bounded⟩

end ArbNautilus.Store
