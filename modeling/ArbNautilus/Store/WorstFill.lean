import ArbNautilus.Store.Admission
import Mathlib.Algebra.Order.BigOperators.Group.Finset

namespace ArbNautilus.Store

open Base

/-- A fill of some part of one of `n` working orders. -/
structure PartialFill (n : ℕ) where
  order : Fin n
  fillKey : String
  ounces : ℚ
  positive : 0 < ounces

section Schedule

variable {orders : List (SourceOrderRecord × ℚ)}

def PartialFill.record (fill : PartialFill orders.length) : SourceOrderRecord :=
  (orders.get fill.order).1

/-- The fill as a change of the source position. -/
def PartialFill.signed (fill : PartialFill orders.length) : ℚ :=
  fill.record.side.sign * fill.ounces

/-- No order is filled beyond its leaves. -/
def Fits (orders : List (SourceOrderRecord × ℚ)) (fills : List (PartialFill orders.length)) :
    Prop :=
  ∀ i, ((fills.filter (·.order = i)).map (·.ounces)).sum ≤ (orders.get i).2

/-- The leaves of one side. -/
def sideLeaves (side : BusinessOrderSide) (orders : List (SourceOrderRecord × ℚ)) : ℚ :=
  (orders.map fun order => if order.1.side = side then order.2 else 0).sum

theorem sum_by_order (fills : List (PartialFill orders.length))
    (f : PartialFill orders.length → ℚ) :
    (fills.map f).sum = ∑ i, ((fills.filter (·.order = i)).map f).sum := by
  induction fills with
  | nil => simp
  | cons fill fills ih =>
    have turn : ∀ i, (((fill :: fills).filter (·.order = i)).map f).sum =
        (if fill.order = i then f fill else 0) + ((fills.filter (·.order = i)).map f).sum := by
      intro i
      by_cases hit : fill.order = i <;> simp [hit]
    rw [List.map_cons, List.sum_cons, ih, Finset.sum_congr rfl fun i _ => turn i,
      Finset.sum_add_distrib, Finset.sum_ite_eq]
    simp

/-- A side's fills stay within its leaves. -/
theorem Fits.side {fills : List (PartialFill orders.length)} (fits : Fits orders fills)
    (side : BusinessOrderSide) :
    (fills.map fun fill => if fill.record.side = side then fill.ounces else 0).sum ≤
      sideLeaves side orders := by
  have leaves : sideLeaves side orders =
      ∑ i, if (orders.get i).1.side = side then (orders.get i).2 else 0 := by
    rw [sideLeaves, ← List.sum_ofFn]
    congr 1
    apply List.ext_getElem
    · simp
    · intro k _ _
      simp
  rw [leaves, sum_by_order]
  apply Finset.sum_le_sum
  intro i _
  have one : ((fills.filter (·.order = i)).map fun fill =>
      if fill.record.side = side then fill.ounces else 0) =
      (fills.filter (·.order = i)).map fun fill =>
        if (orders.get i).1.side = side then fill.ounces else 0 := by
    apply List.map_congr_left
    intro fill member
    have here : fill.order = i := by simpa using (List.mem_filter.1 member).2
    rw [PartialFill.record, here]
  rw [one]
  split
  · exact fits i
  · simp

theorem PartialFill.signed_buy {fill : PartialFill orders.length} (side : fill.record.side = .buy) :
    fill.signed = fill.ounces := by
  simp [signed, side, BusinessOrderSide.sign]

theorem PartialFill.signed_sell {fill : PartialFill orders.length}
    (side : fill.record.side = .sell) : fill.signed = -fill.ounces := by
  simp [signed, side, BusinessOrderSide.sign]

theorem Fits.within {fills : List (PartialFill orders.length)} (fits : Fits orders fills) :
    Within (fills.map PartialFill.signed) (sideLeaves .buy orders) (sideLeaves .sell orders) := by
  have bought : ((fills.map PartialFill.signed).filter (0 ≤ ·)).sum =
      (fills.map fun fill => if fill.record.side = .buy then fill.ounces else 0).sum := by
    clear fits
    induction fills with
    | nil => simp
    | cons fill fills ih =>
      have positive := fill.positive
      cases side : fill.record.side with
      | buy => simp [PartialFill.signed_buy side, positive.le, ih, side]
      | sell => simp [PartialFill.signed_sell side, positive, ih, side]
  have sold : -((fills.map PartialFill.signed).filter (· < 0)).sum =
      (fills.map fun fill => if fill.record.side = .sell then fill.ounces else 0).sum := by
    clear fits bought
    induction fills with
    | nil => simp
    | cons fill fills ih =>
      have positive := fill.positive
      cases side : fill.record.side with
      | buy => simp [PartialFill.signed_buy side, positive.le, ih, side]
      | sell =>
        simp [PartialFill.signed_sell side, positive, ← ih, side]
        ring
  exact ⟨bought ▸ fits.side .buy, sold ▸ fits.side .sell⟩

end Schedule

namespace OwnerConfig

variable (cfg : OwnerConfig)

/-- Fills allocated one after another, and the signed ounces each of them orders. -/
def allocateAll : Book → List (SourceOrderRecord × String × ℚ) → Book × List ℤ
  | b, [] => (b, [])
  | b, (record, fillKey, signed) :: fills =>
    let (b, allocated) := cfg.allocate b record fillKey signed
    let (b, rest) := allocateAll b fills
    (b, allocated :: rest)

/-- On one route, allocation is carry arithmetic on the route's residual. -/
theorem allocateAll_eq (r : Route) (b : Book) (fills : List (SourceOrderRecord × String × ℚ))
    (routed : ∀ fill ∈ fills, route fill.1 = r) :
    (cfg.allocateAll b fills).2 = emits (cfg.residual b r) (fills.map (·.2.2)) ∧
      cfg.residual (cfg.allocateAll b fills).1 r =
        carryAll (cfg.residual b r) (fills.map (·.2.2)) := by
  induction fills generalizing b with
  | nil => exact ⟨rfl, rfl⟩
  | cons fill fills ih =>
    obtain ⟨record, fillKey, signed⟩ := fill
    have here : route record = r := routed _ List.mem_cons_self
    have kept : cfg.residual (cfg.allocate b record fillKey signed).1 r =
        carry (cfg.residual b r) signed := by
      rw [residual_eq_balanceAfter, residual_eq_balanceAfter]
      simp only [allocate]
      rw [balanceAfter_concat, if_pos here, residual_eq_balanceAfter, here, allocationNet, carry,
        roundHedgeOunces]
      ring
    have rest := ih (cfg.allocate b record fillKey signed).1
      fun later member => routed later (List.mem_cons_of_mem _ member)
    rw [kept] at rest
    simp only [allocateAll, List.map_cons, emits, carryAll_cons]
    refine ⟨?_, rest.2⟩
    rw [rest.1]
    simp [allocate, here, roundHedgeOunces]

end OwnerConfig

namespace SharedSourceAdmission

/-- Neither crossing zero nor shrinking below the kept minimum. -/
def Keeps (net minimum after : ℚ) : Prop :=
  0 ≤ net * after ∧ (minimum ≤ |after| ∨ |net| ≤ |after|)

/-- What `_within_bounds` promises of every position between its extremes. -/
theorem withinBounds_sound {net buy sell maximum minimum : ℚ} {onlyLong : Bool}
    (h : withinBounds net buy sell maximum minimum onlyLong = true) (after : ℚ)
    (low : net - sell ≤ after) (high : after ≤ net + buy) :
    |after| ≤ max |net| maximum ∧ (onlyLong = true → net ≠ 0 → Keeps net minimum after) := by
  simp only [withinBounds] at h
  split at h
  · cases h
  · rename_i inside
    rw [not_or, not_lt, not_lt] at inside
    obtain ⟨upper, lower⟩ := inside
    constructor
    · rw [abs_le]
      have positive := le_abs_self net
      have negative := neg_abs_le net
      rcases max_choice net maximum with top | top <;>
        rcases min_choice net (-maximum) with bottom | bottom <;>
        rw [top] at upper <;> rw [bottom] at lower <;>
        constructor <;> rcases le_total |net| maximum with order | order <;>
        simp only [max_eq_left, max_eq_right, order] <;> linarith
    · rintro rfl nonzero
      simp only [Bool.true_eq_false, if_false, List.all_cons, List.all_nil, Bool.and_true,
        Bool.and_eq_true, decide_eq_true_eq, not_and, not_lt] at h
      obtain ⟨⟨up, keepUp⟩, down, keepDown⟩ := h
      rcases lt_or_gt_of_ne nonzero with negative | positive
      · have topSign : net + buy ≤ 0 := nonpos_of_mul_nonneg_right up negative
        have sign : after ≤ 0 := high.trans topSign
        refine ⟨mul_nonneg_of_nonpos_of_nonpos negative.le sign, ?_⟩
        rw [abs_of_nonpos topSign, abs_of_neg negative] at keepUp
        rw [abs_of_nonpos sign, abs_of_neg negative]
        by_cases short : -(net + buy) < minimum
        · exact .inr (by linarith [keepUp short])
        · exact .inl (by linarith)
      · have bottomSign : 0 ≤ net - sell := nonneg_of_mul_nonneg_right down positive
        have sign : 0 ≤ after := bottomSign.trans low
        refine ⟨mul_nonneg positive.le sign, ?_⟩
        rw [abs_of_nonneg bottomSign, abs_of_pos positive] at keepDown
        rw [abs_of_nonneg sign, abs_of_pos positive]
        by_cases short : net - sell < minimum
        · exact .inr (by linarith [keepDown short])
        · exact .inl (by linarith)

theorem addLeaves_loop {o : MakerStateStore} {source : SourceAccount}
    {orders : Dict String NativeOrder} {entries : List (String × ViewKey × SourceOrderRecord)}
    {leaves counted : ℚ × ℚ}
    (loop : entries.foldlM (addLeaves o source orders) leaves = some counted) :
    counted.1 = leaves.1 + sideLeaves .buy (entries.filterMap (openOrder orders)) ∧
      counted.2 = leaves.2 + sideLeaves .sell (entries.filterMap (openOrder orders)) := by
  induction entries generalizing leaves with
  | nil =>
    simp only [List.foldlM_nil, Option.pure_def, Option.some.injEq] at loop
    simp [loop, sideLeaves]
  | cons entry entries ih =>
    simp only [List.foldlM_cons, Option.bind_eq_bind, Option.bind_eq_some_iff] at loop
    obtain ⟨next, turn, loop⟩ := loop
    obtain ⟨buys, sells⟩ := ih loop
    rw [buys, sells]
    unfold addLeaves at turn
    split at turn
    · cases turn
    · rename_i order found
      split at turn
      · cases turn
      · by_cases closed : order.isClosed = true
        · rw [if_pos closed] at turn
          obtain rfl := Option.some.inj turn
          simp [openOrder, found, closed]
        · rw [if_neg closed] at turn
          cases side : entry.2.2.side <;> rw [side] at turn <;>
            obtain rfl := Option.some.inj turn <;>
            simp [openOrder, found, closed, sideLeaves, side, add_assoc]

theorem freezeAndRefuse_refuses {o o' : MakerStateStore} {pub : Publication} {reason : String} :
    freezeAndRefuse o pub reason ≠ (.ok true, o') := by
  unfold freezeAndRefuse
  split <;> simp

variable {a : SharedSourceAdmission} {market : Market} {o o' : MakerStateStore} {v : ViewKey}
  {side : BusinessOrderSide} {quantity : ℚ} {pub : Publication}

theorem call_admits (h : a.call market o v side quantity pub = (.ok true, o')) :
    ∃ source hedge, market.accounts = some (source, hedge, true) ∧ ∃ buy sell,
      (records o).entries.foldlM (addLeaves o source (native market)) (requested side quantity) =
        some (buy, sell) ∧
      a.limitsAllow (o.cfg.carryResidualOunces o.book) source hedge buy sell = .ok true := by
  unfold call at h
  split at h
  · simp at h
  · split at h
    · simp at h
    · rename_i source hedge qualified accounts
      split at h
      · simp at h
      · rename_i qualifies
        split at h
        · exact absurd h freezeAndRefuse_refuses
        · split at h
          · exact absurd h freezeAndRefuse_refuses
          · split at h
            · exact absurd h freezeAndRefuse_refuses
            · rename_i buy sell loop
              simp only [Prod.mk.injEq] at h
              obtain rfl : qualified = true := by simpa using qualifies
              exact ⟨source, hedge, accounts, buy, sell, loop, h.1⟩

/-- The leaves the call adds up are those of its working orders. -/
theorem leaves_working {source : SourceAccount} {buy sell : ℚ} {new : SourceOrderRecord}
    (newSide : new.side = side)
    (loop : (records o).entries.foldlM (addLeaves o source (native market))
      (requested side quantity) = some (buy, sell)) :
    sideLeaves .buy (working market o new quantity) = buy ∧
      sideLeaves .sell (working market o new quantity) = sell := by
  obtain ⟨buys, sells⟩ := addLeaves_loop loop
  simp only [working, sideLeaves, List.map_append, List.sum_append] at buys sells ⊢
  cases side <;> simp [requested, newSide] at buys sells ⊢ <;> constructor <;> linarith

/-- The total of the positive quantities, and that of the negative ones. -/
def positives (xs : List ℚ) : ℚ := (xs.filter (0 ≤ ·)).sum

def negatives (xs : List ℚ) : ℚ := -(xs.filter (· < 0)).sum

/-- The worst case stays within the limits. `ordered` are the hedges the fills allocate, SELL
positive, `hedged` what was executed of them, and `left` the residual the fills leave. -/
structure Covered (a : SharedSourceAdmission) (source : SourceAccount) (hedge : HedgeAccount)
    (oneSided : Prop) (fills : List ℚ) (left : ℚ) (ordered : List ℤ) (hedged : List ℚ) : Prop where
  sourcePosition : |source.positionOunces + fills.sum| ≤ max |source.positionOunces|
    a.risk.sourceMaxAbs
  hedgePosition : |hedge.positionOunces - hedged.sum| ≤ max |hedge.positionOunces|
    a.risk.hedgeMaxAbs
  unhedged : ∀ limit ∈ a.maxUnhedgedOunces, |left + (ordered.sum - hedged.sum)| ≤ limit
  sourceBuys : positives fills ≤ source.maxLongOunces
  sourceSells : negatives fills ≤ source.maxShortOunces
  hedgeDelta : -hedged.sum ≤ hedge.maxLongOunces ∧ hedged.sum ≤ hedge.maxShortOunces
  hedgeGross : oneSided → negatives hedged ≤ hedge.maxLongOunces ∧
    positives hedged ≤ hedge.maxShortOunces
  sourceKeeps : a.risk.onlyLong = true → source.positionOunces ≠ 0 →
    Keeps source.positionOunces a.risk.sourceMinKeepAbs (source.positionOunces + fills.sum)
  hedgeKeeps : a.risk.onlyLong = true → hedge.positionOunces ≠ 0 →
    Keeps hedge.positionOunces a.risk.hedgeMinKeepAbs (hedge.positionOunces - hedged.sum)

theorem positives_sub_negatives (xs : List ℚ) : positives xs - negatives xs = xs.sum := by
  rw [sum_split xs, positives, negatives]
  ring

theorem negatives_of_nonneg {xs : List ℚ} (h : ∀ x ∈ xs, 0 ≤ x) : negatives xs = 0 := by
  have none : xs.filter (· < 0) = [] := by
    rw [List.filter_eq_nil_iff]
    intro x member
    simpa using h x member
  simp [negatives, none]

theorem positives_of_nonpos {xs : List ℚ} (h : ∀ x ∈ xs, x ≤ 0) : positives xs = 0 := by
  have zero : ∀ x ∈ xs.filter (0 ≤ ·), x ≤ 0 := fun x member => h x (List.mem_filter.1 member).1
  exact le_antisymm (sum_nonpos zero) (filter_nonneg_sum xs)

theorem carryBounds_valid {residual buy sell exposure hedgeBuy hedgeSell : ℚ}
    (bounds : makerCarryBounds residual buy sell = .ok (exposure, hedgeBuy, hedgeSell)) :
    |residual| ≤ 1 / 2 ∧ 0 ≤ hedgeBuy ∧ 0 ≤ hedgeSell := by
  unfold makerCarryBounds at bounds
  split at bounds
  · cases bounds
  · rename_i valid
    rw [not_or, not_lt, not_lt] at valid
    simp only [Except.ok.injEq, Prod.mk.injEq] at bounds
    obtain ⟨-, rfl, rfl⟩ := bounds
    refine ⟨valid.1, ?_, ?_⟩ <;> split <;> simp

/-- With one side working the hedges have one sign: their delta is their gross quantity. -/
theorem gross_of_oneSided {residual buy sell : ℚ} (small : |residual| ≤ 1 / 2)
    {fills hedged : List ℚ} (within : Within fills buy sell)
    (executed : Executed (emits residual fills) hedged) (one : sell = 0 ∨ buy = 0) :
    (negatives hedged = 0 ∧ positives hedged = hedged.sum) ∨
      (positives hedged = 0 ∧ negatives hedged = -hedged.sum) := by
  have delta := positives_sub_negatives hedged
  rcases one with rfl | rfl
  · left
    have none :=
      negatives_of_nonneg (executed.nonneg (emits_nonneg small within.nonneg_of_no_sells))
    exact ⟨none, by linarith⟩
  · right
    have none := positives_of_nonpos (executed.nonpos (emits_nonpos small within.nonpos_of_no_buys))
    exact ⟨none, by linarith⟩

theorem sideLeaves_of_none {side : BusinessOrderSide} {orders : List (SourceOrderRecord × ℚ)}
    (none : ∀ order ∈ orders, order.1.side ≠ side) : sideLeaves side orders = 0 := by
  apply List.sum_eq_zero
  intro x member
  obtain ⟨order, present, rfl⟩ := List.mem_map.1 member
  exact if_neg (none order present)

/-- The three carry bounds hold whatever of the ordered hedges was executed. -/
theorem carryBounds_sound {residual buy sell exposure hedgeBuy hedgeSell : ℚ}
    (bounds : makerCarryBounds residual buy sell = .ok (exposure, hedgeBuy, hedgeSell))
    {fills hedged : List ℚ} (within : Within fills buy sell)
    (executed : Executed (emits residual fills) hedged) :
    |residual + fills.sum - hedged.sum| ≤ exposure ∧ -hedgeBuy ≤ hedged.sum ∧
      hedged.sum ≤ hedgeSell := by
  obtain ⟨small, -⟩ := carryBounds_valid bounds
  unfold makerCarryBounds at bounds
  split at bounds
  · cases bounds
  · simp only [Except.ok.injEq, Prod.mk.injEq] at bounds
    obtain ⟨rfl, rfl, rfl⟩ := bounds
    have owed : ∀ bound : ℚ, (∀ j, |residual + fills.sum -
        ((((emits residual fills).take j).sum : ℤ) : ℚ)| ≤ bound) →
        |residual + fills.sum - hedged.sum| ≤ bound := by
      intro bound prefixes
      have ends := executed.between (residual + fills.sum - bound)
        (residual + fills.sum + bound) fun j => by
          have both := abs_le.1 (prefixes j)
          constructor <;> linarith
      rw [abs_le]
      constructor <;> linarith
    refine ⟨?_, ?_⟩
    · split
      · exact owed _ (abs_owed_le small within)
      · rename_i oneSided
        rcases not_and_or.1 oneSided with noBuys | noSells
        · obtain rfl := not_not.1 noBuys
          simpa using owed _ (abs_owed_sell_le small within)
        · obtain rfl := not_not.1 noSells
          simpa using owed _ (abs_owed_buy_le small within)
    · have between := executed.between
        (-(if sell ≠ 0 then ((max 0 ⌊-residual + sell + 1 / 2⌋ : ℤ) : ℚ) else 0))
        (if buy ≠ 0 then ((max 0 ⌊residual + buy + 1 / 2⌋ : ℤ) : ℚ) else 0) fun j => by
        constructor
        · split
          · have low := le_prefix_emits small within j
            have floor := le_max_right 0 ⌊-residual + sell + 1 / 2⌋
            have both : -max 0 ⌊-residual + sell + 1 / 2⌋ ≤
                ((emits residual fills).take j).sum := by omega
            exact_mod_cast both
          · rename_i noSells
            obtain rfl := not_not.1 noSells
            have signs := emits_nonneg small within.nonneg_of_no_sells
            have sum : 0 ≤ ((emits residual fills).take j).sum :=
              List.sum_nonneg fun n member => signs n (List.mem_of_mem_take member)
            rw [neg_zero]
            exact_mod_cast sum
        · split
          · have high := prefix_emits_le small within j
            have floor := le_max_right 0 ⌊residual + buy + 1 / 2⌋
            have both : ((emits residual fills).take j).sum ≤
                max 0 ⌊residual + buy + 1 / 2⌋ := by omega
            exact_mod_cast both
          · rename_i noBuys
            obtain rfl := not_not.1 noBuys
            have signs := emits_nonpos small within.nonpos_of_no_buys
            have sum : ((emits residual fills).take j).sum ≤ 0 :=
              sum_nonpos fun n member => signs n (List.mem_of_mem_take member)
            exact_mod_cast sum
      simpa using between

/-- Where a source order is admitted, the capacity of both accounts covers every partial fill of all
working orders and every prefix of the hedges that these fills open. -/
theorem admission_covers (a : SharedSourceAdmission) {market : Market} {o o' : MakerStateStore}
    {v : ViewKey} {side : BusinessOrderSide} {quantity : ℚ} {pub : Publication}
    (admitted : a.call market o v side quantity pub = (.ok true, o')) {carry : Route}
    (configured : o.cfg.carryRoute = some carry) {new : SourceOrderRecord}
    (newSide : new.side = side)
    (routed : ∀ order ∈ working market o new quantity, route order.1 = carry) :
    ∃ source hedge, market.accounts = some (source, hedge, true) ∧
      ∀ fills : List (PartialFill (working market o new quantity).length),
        Fits (working market o new quantity) fills → ∀ hedged : List ℚ,
          let reached := o.cfg.allocateAll o.book
            (fills.map fun fill => (fill.record, fill.fillKey, fill.signed))
          Executed reached.2 hedged →
          Covered a source hedge (∀ order ∈ working market o new quantity, order.1.side = side)
            (fills.map PartialFill.signed) (o.cfg.residual reached.1 carry) reached.2 hedged := by
  obtain ⟨source, hedge, accounts, buy, sell, loop, allows⟩ := call_admits admitted
  obtain ⟨buyLeaves, sellLeaves⟩ := leaves_working newSide loop
  refine ⟨source, hedge, accounts, fun fills fits hedged => ?_⟩
  intro reached executed
  have within := fits.within
  rw [buyLeaves, sellLeaves] at within
  obtain ⟨ordered, left⟩ := o.cfg.allocateAll_eq carry o.book
    (fills.map fun fill => (fill.record, fill.fillKey, fill.signed)) (by
      intro fill member
      obtain ⟨part, -, rfl⟩ := List.mem_map.1 member
      exact routed _ (List.getElem_mem _))
  have signed : (fills.map fun fill => (fill.record, fill.fillKey, fill.signed)).map (·.2.2) =
      fills.map PartialFill.signed := by
    rw [List.map_map]
    rfl
  rw [signed] at ordered left
  have residual : o.cfg.carryResidualOunces o.book = o.cfg.residual o.book carry := by
    rw [OwnerConfig.carryResidualOunces, configured]
  rw [residual] at allows
  unfold limitsAllow at allows
  split at allows
  · simp at allows
  · rename_i sourceAllows
    simp only [not_or, not_lt, Bool.not_eq_false] at sourceAllows
    obtain ⟨long, short, sourceInside⟩ := sourceAllows
    split at allows
    · cases allows
    · rename_i exposure hedgeBuy hedgeSell bounds
      simp only [Except.ok.injEq, decide_eq_true_eq] at allows
      obtain ⟨exposed, hedgeLong, hedgeShort, hedgeInside⟩ := allows
      rw [show reached.2 = _ from ordered] at executed ⊢
      rw [show o.cfg.residual reached.1 carry = _ from left]
      obtain ⟨owed, low, high⟩ := carryBounds_sound bounds within executed
      obtain ⟨sourceMost, sourceKeeps⟩ := withinBounds_sound sourceInside
        (source.positionOunces + (fills.map PartialFill.signed).sum) (by linarith [within.bounds.1])
          (by linarith [within.bounds.2])
      obtain ⟨hedgeMost, hedgeKeeps⟩ := withinBounds_sound hedgeInside
        (hedge.positionOunces - hedged.sum) (by linarith) (by linarith)
      have conserved := carryAll_add_emits (o.cfg.residual o.book carry)
        (fills.map PartialFill.signed)
      refine ⟨sourceMost, hedgeMost, ?_, within.buys.trans long, within.sells.trans short,
        ⟨by linarith, by linarith⟩, ?_, sourceKeeps, hedgeKeeps⟩
      · intro limit configured
        have same : carryAll (o.cfg.residual o.book carry) (fills.map PartialFill.signed) +
            (((emits (o.cfg.residual o.book carry) (fills.map PartialFill.signed)).sum : ℤ) -
              hedged.sum) =
            o.cfg.residual o.book carry + (fills.map PartialFill.signed).sum - hedged.sum := by
          linarith
        rw [same]
        exact owed.trans (exposed limit configured)
      · intro oneSided
        obtain ⟨small, noBuy, noSell⟩ := carryBounds_valid bounds
        have one : sell = 0 ∨ buy = 0 := by
          cases side
          · left
            rw [← sellLeaves]
            exact sideLeaves_of_none fun order member => by simp [oneSided order member]
          · right
            rw [← buyLeaves]
            exact sideLeaves_of_none fun order member => by simp [oneSided order member]
        rcases gross_of_oneSided small within executed one with ⟨none, all⟩ | ⟨none, all⟩ <;>
          rw [none, all] <;> constructor <;> linarith

/-- One ounce bid on the shared accounts, and room for one ounce of hedge either way. -/
def carryRoute : Route := ⟨some "SOURCE-1", some "SOURCE", some "HEDGE-1", some "HEDGE", none⟩

def carryOwner : MakerStateStore :=
  MakerStateStore.run id
    ⟨{ sharedConfig with residualLimit := 1 / 2, carryRoute := some carryRoute },
      .empty, .empty, false⟩
    [(.bid, .beginSource { sharedRequest "O-1" with quantityOunces := 1 })]

def carryMarket : Market where
  ticks := true
  accounts := some (⟨"SOURCE-1", 0, 1, 1⟩, ⟨0, 1, 1⟩, true)
  positionsReady := true
  orders := [⟨"O-1", "MAKER-1", .buy, 1, 0, 1, none, false⟩]

def carryAdmission : SharedSourceAdmission := ⟨⟨2, 2, 0, 0, false⟩, some 2, true⟩

/-- The ask that joins the bid. -/
def carryAsk : SourceOrderRecord :=
  { (sharedRequest "O-2").record with side := .sell, quantityOunces := 1 }

def carryWorking : List (SourceOrderRecord × ℚ) := working carryMarket carryOwner carryAsk 1

/-- Small fills on either side in turn, each tipping the residual over a half. -/
def tippingFills : List (PartialFill carryWorking.length) :=
  let bid : Fin carryWorking.length := ⟨0, by decide +kernel⟩
  let ask : Fin carryWorking.length := ⟨1, by decide +kernel⟩
  [⟨bid, "O-1|V-1|T-1", 3 / 5, by norm_num⟩, ⟨ask, "O-2|V-2|T-2", 1 / 5, by norm_num⟩,
    ⟨bid, "O-1|V-1|T-3", 1 / 5, by norm_num⟩, ⟨ask, "O-2|V-2|T-4", 1 / 5, by norm_num⟩,
    ⟨bid, "O-1|V-1|T-5", 1 / 5, by norm_num⟩]

theorem carry_admitted : ∃ o', carryAdmission.call carryMarket carryOwner .ask .sell 1 .published =
    (.ok true, o') := by
  have admitted : (carryAdmission.call carryMarket carryOwner .ask .sell 1 .published).1 =
      .ok true := by decide +kernel
  exact ⟨_, Prod.ext admitted rfl⟩

theorem tipping_executed : Executed (carryOwner.cfg.allocateAll carryOwner.book
    (tippingFills.map fun fill => (fill.record, fill.fillKey, fill.signed))).2
    [1, -1, 1, -1, (1 : ℚ)] := by
  have ordered : (carryOwner.cfg.allocateAll carryOwner.book
      (tippingFills.map fun fill => (fill.record, fill.fillKey, fill.signed))).2 =
        [1, -1, 1, -1, 1] := by decide +kernel
  rw [ordered]
  have all := Executed.whole (n := 1) (.whole (n := -1) (.whole (n := 1) (.whole (n := -1)
    (.whole (n := 1) (Executed.none (K := ℚ) [])))))
  simpa using all

/-- With both sides working, the gross hedge sells can pass the account's capacity. -/
theorem gross_hedge_unbounded : ∃ (a : SharedSourceAdmission) (market : Market)
    (o o' : MakerStateStore) (new : SourceOrderRecord) (source : SourceAccount)
    (hedge : HedgeAccount) (fills : List (PartialFill (working market o new 1).length))
    (hedged : List ℚ), OwnerReachable id o ∧
      a.call market o .ask .sell 1 .published = (.ok true, o') ∧
      o.cfg.carryRoute = some carryRoute ∧ new.side = .sell ∧
      (∀ order ∈ working market o new 1, route order.1 = carryRoute) ∧
      market.accounts = some (source, hedge, true) ∧ Fits (working market o new 1) fills ∧
      Executed (o.cfg.allocateAll o.book
        (fills.map fun fill => (fill.record, fill.fillKey, fill.signed))).2 hedged ∧
      hedge.maxShortOunces < positives hedged := by
  obtain ⟨o', admitted⟩ := carry_admitted
  refine ⟨carryAdmission, carryMarket, carryOwner, o', carryAsk, _, _, tippingFills, _,
    (OwnerReachable.start (by decide +kernel)).run (by decide +kernel), admitted,
    by decide +kernel, rfl, by decide +kernel, rfl, ?_, tipping_executed, by decide +kernel⟩
  unfold Fits
  decide +kernel

theorem admission_covers_tipping :
    let reached := carryOwner.cfg.allocateAll carryOwner.book
      (tippingFills.map fun fill => (fill.record, fill.fillKey, fill.signed))
    ∃ source hedge, Covered carryAdmission source hedge
      (∀ order ∈ carryWorking, order.1.side = .sell) (tippingFills.map PartialFill.signed)
      (carryOwner.cfg.residual reached.1 carryRoute) reached.2 [1, -1, 1, -1, 1] := by
  intro reached
  obtain ⟨o', admitted⟩ := carry_admitted
  have configured : carryOwner.cfg.carryRoute = some carryRoute := by decide +kernel
  have newSide : carryAsk.side = .sell := rfl
  obtain ⟨source, hedge, -, covers⟩ := carryAdmission.admission_covers admitted configured newSide
    (by decide +kernel)
  have fits : Fits carryWorking tippingFills := by
    unfold Fits
    decide +kernel
  exact ⟨source, hedge, covers tippingFills fits _ tipping_executed⟩

end SharedSourceAdmission

end ArbNautilus.Store
