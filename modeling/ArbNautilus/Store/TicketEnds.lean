import ArbNautilus.Store.CarryPreflight

/-! What the preflight of a bounded carry does not look at: where between the ends of the tickets a
hedge stops. -/

namespace ArbNautilus.Store

open Base

section Ends

variable {rule : LotRule} {caps : List ℚ} {quantity : ℚ}

/-- Where neither a part that is taken nor one that is left is below the minimum, every end stays
apart from where the quantity stops. -/
theorem LotRule.apart_of_parts (lot : 0 < rule.lotSize) (owed : 0 ≤ quantity)
    (capacities : ∀ c ∈ caps, 0 < c)
    (taken : ∀ x ∈ cut 0 quantity caps, rule.volumeMin ≤ x / rule.lotSize)
    (left : ∀ x ∈ remaining quantity caps, rule.volumeMin ≤ x / rule.lotSize) :
    rule.Apart caps quantity := by
  have away {x y : ℚ} (least : rule.volumeMin ≤ x / rule.lotSize) (le : x ≤ |y|) :
      rule.volumeMin ≤ |y| / rule.lotSize :=
    least.trans (div_le_div_of_nonneg_right le lot.le)
  induction caps generalizing quantity with
  | nil =>
    intro front start
    obtain rfl := List.prefix_nil.1 start
    rcases owed.eq_or_lt with none | some'
    · exact .inl (by rw [← none]; rfl)
    · right
      have whole := taken quantity (by simp [cut, piece, some'])
      apply away whole
      rw [List.sum_nil, zero_sub, abs_neg]
      exact le_abs_self quantity
  | cons c caps ih =>
    obtain ⟨positive, capacities'⟩ := List.forall_mem_cons.1 capacities
    have spans : cut 0 quantity (c :: caps) =
        piece 0 (min quantity c) ++ cut 0 (quantity - c) caps := by
      rw [cut, max_self, cut_nonpos (by linarith) le_rfl _ capacities']
    rw [spans] at taken
    have first (some' : 0 < quantity) : rule.volumeMin ≤ |quantity| / rule.lotSize := by
      have part := taken (min quantity c) (List.mem_append_left _
        (mem_piece.2 ⟨lt_min some' positive, (sub_zero _).symm⟩))
      exact away part ((min_le_left _ _).trans (le_abs_self _))
    intro front start
    rcases front with _ | ⟨c', front⟩
    · rcases owed.eq_or_lt with none | some'
      · exact .inl (by rw [← none]; rfl)
      · right
        rw [List.sum_nil, zero_sub, abs_neg]
        exact first some'
    · obtain ⟨rfl, more⟩ := List.cons_prefix_cons.1 start
      rw [List.sum_cons]
      by_cases part : quantity < c'
      · right
        have rest := left (c' - quantity) (by rw [remaining, if_pos part]; exact List.mem_cons_self)
        apply away rest
        have nonneg : 0 ≤ front.sum := List.sum_nonneg fun x member =>
          (capacities' x (more.subset member)).le
        exact le_trans (by linarith) (le_abs_self _)
      · rw [remaining, if_neg part] at left
        have later := ih (sub_nonneg.2 (not_lt.1 part)) capacities'
          (fun x member => taken x (List.mem_append_right _ member)) left front more
        have shift : c' + front.sum - quantity = front.sum - (quantity - c') := by ring
        rw [shift]
        rcases later with there | apart
        · exact .inl (by linarith)
        · exact .inr apart

end Ends

section Runs

variable {rule : LotRule} {positions after : List Position} {ns : List ℤ}
  {plans : List (List HedgeLeg)}

/-- A hedge of legs that may be traded, and that leaves such tickets, stops clear of their ends. -/
theorem LotRule.clear_of_leaves {n : ℤ} {plan : List HedgeLeg} {opened : String}
    (steps : rule.Steps |(n : ℚ)|)
    (planned : planHedgeDelta positions (hedgeSideOf n) |n| = .ok plan) (named : opened ≠ "")
    (fresh : opened ∉ positions.map (·.id))
    (legs : ∀ leg ∈ plan, rule.Admits leg.quantityOunces)
    (left : rule.Tradable (plan.foldl (executeLeg opened) positions)) :
    rule.Clear positions n := by
  have served := plan_run planned named fresh
  have least {q : ℚ} (admitted : rule.Admits q) : rule.volumeMin ≤ q / rule.lotSize :=
    (LotRule.admits_iff.1 admitted).1.least
  apply LotRule.apart_of_parts (lt_min_iff.1 steps.volumes).1 (abs_nonneg _)
  · intro c member
    obtain ⟨position, opposes, rfl⟩ := List.mem_map.1 member
    exact (planHedgeDelta_tickets planned).2.positive position
      (List.mem_of_mem_filter ((opposing_perm positions _).mem_iff.1 opposes))
  · intro x member
    rw [← served.quantities] at member
    obtain ⟨leg, listed, rfl⟩ := List.mem_map.1 member
    exact least (legs leg listed)
  · intro x member
    rw [← map_leftTickets, ← served.opposing] at member
    obtain ⟨position, opposes, rfl⟩ := List.mem_map.1 member
    exact least (left position
      (List.mem_of_mem_filter ((opposing_perm _ _).mem_iff.1 opposes)))

theorem TicketRun.clear (run : TicketRun rule.Leaves positions ns plans after)
    (whole : ∀ n ∈ ns, n ≠ 0 → rule.Steps |(n : ℚ)|)
    (legs : ∀ plan ∈ plans, ∀ leg ∈ plan, rule.Admits leg.quantityOunces) :
    TicketRun rule.Clear positions ns plans after := by
  induction run with
  | nil positions => exact .nil positions
  | idle _ ih => exact .idle (ih (fun n later => whole n (List.mem_cons_of_mem _ later)) legs)
  | @hedge positions after n ns plan plans opened met ordered planned named fresh run ih =>
    obtain ⟨first, others⟩ := List.forall_mem_cons.1 legs
    have steps := whole n List.mem_cons_self ordered
    have left := met plan opened planned named fresh
    have clear := LotRule.clear_of_leaves steps planned named fresh first left
    have later := ih (fun n later => whole n (List.mem_cons_of_mem _ later)) others
    exact .hedge opened clear ordered planned named fresh later

end Runs

section Carry

variable {m : CarryMaker} {quote : MakerQuote} {quantity : ℚ} {exclude : Option String}
  {rule : LotRule}

/-- The hedges of an accepted bounded carry stop clear of the tickets' ends exactly when all their
legs may be traded and every ticket they leave may be traded whole. -/
theorem carry_hedges_admitted_iff (ready : m.hedgeQuantityReady = some rule.ready)
    (accepted : m.carrySourceIsExecutable quote quantity exclude = .ok true) {carry : Route}
    (pool : m.owner.cfg.carryRoute = some carry)
    (portfolio : quote.hedgeAccount.positionOunces = netOunces m.positions)
    (traded : rule.Tradable m.positions) :
    ∃ leaves, m.carryWorkingLeaves quote quantity exclude = some leaves ∧
      ∀ fills : List RoutedFill, (∀ fill ∈ fills, route fill.record = carry) →
        RoutedFill.total .buy fills ≤ leaves.1 → RoutedFill.total .sell fills ≤ leaves.2 →
        ∀ plans after,
          TicketRun rule.Clear m.positions (allocated m.owner.cfg m.owner.book fills) plans after ↔
            (∀ plan ∈ plans, ∀ leg ∈ plan, rule.Admits leg.quantityOunces) ∧
              TicketRun rule.Leaves m.positions (allocated m.owner.cfg m.owner.book fills) plans
                after := by
  obtain ⟨leaves, working, hedges⟩ := carrySourceIsExecutable_room ready accepted pool portfolio
  refine ⟨leaves, working, fun fills routed buys sells plans after => ?_⟩
  obtain ⟨whole, room⟩ := hedges fills routed buys sells _ rfl
  constructor
  · intro run
    obtain ⟨legs, left, -⟩ := run.traded traded whole room
    exact ⟨legs, left⟩
  · rintro ⟨legs, run⟩
    exact run.clear whole legs

theorem carry_hedges_admitted_iff_bid : ∃ plans after,
    TicketRun singleLots.Leaves biddingMaker.positions [1, 1] plans after ∧
      (∀ plan ∈ plans, ∀ leg ∈ plan, singleLots.Admits leg.quantityOunces) := by
  obtain ⟨leaves, working, all⟩ := @carry_hedges_admitted_iff biddingMaker bidQuote 2 none
    singleLots rfl biddingMaker_accepts SharedSourceAdmission.carryRoute rfl (by decide +kernel)
    biddingMaker_tradable
  obtain rfl : leaves = (2, 0) := Option.some.inj (working.symm.trans biddingMaker_leaves)
  obtain ⟨plans, after, run⟩ := biddingMaker_clear
  have both := all twoOunces (by decide +kernel) (by decide +kernel) (by decide +kernel) plans after
  rw [twoOunces_allocated] at both
  obtain ⟨legs, left⟩ := both.1 run
  exact ⟨plans, after, left, legs⟩

/-- A venue that trades half ounces from one ounce on. -/
def halfLots : LotRule := ⟨100, 1 / 100, 50, 1 / 200⟩

def partQuote : MakerQuote :=
  ⟨.long, ⟨"SOURCE-1", some "SOURCE"⟩, ⟨⟨"HEDGE-1", some "HEDGE"⟩, 3 / 2, 5, 5⟩, 3⟩

/-- A Maker that bids three ounces into a ticket of one and a half. -/
def partMaker : CarryMaker :=
  { biddingMaker with
    maxUnhedgedOunces := some 4
    positions := [⟨"7", true, false, 3 / 2⟩]
    hedgeQuantityReady := some halfLots.ready }

def oneThenTwo : List RoutedFill := [
  ⟨(sharedRequest "O-1").record, "O-1|V-1|T-1", 1, by decide +kernel⟩,
  ⟨(sharedRequest "O-1").record, "O-1|V-1|T-2", 2, by decide +kernel⟩]

/-- The first hedge leaves half an ounce of the ticket, and the second has to close it. -/
theorem carry_preflight_misses_ends :
    partMaker.hedgeQuantityReady = some halfLots.ready ∧
      partMaker.carrySourceIsExecutable partQuote 3 none = .ok true ∧
      partMaker.carryWorkingLeaves partQuote 3 none = some (3, 0) ∧
      partQuote.hedgeAccount.positionOunces = netOunces partMaker.positions ∧
      halfLots.Tradable partMaker.positions ∧
      (∀ fill ∈ oneThenTwo, some (route fill.record) = partMaker.owner.cfg.carryRoute) ∧
      RoutedFill.total .buy oneThenTwo = 3 ∧ RoutedFill.total .sell oneThenTwo = 0 ∧
      ∃ plans after, TicketRun (fun _ _ => True) partMaker.positions
        (allocated partMaker.owner.cfg partMaker.owner.book oneThenTwo) plans after ∧
        ∃ plan ∈ plans, ∃ leg ∈ plan, ¬halfLots.Admits leg.quantityOunces := by
  refine ⟨rfl, by decide +kernel, by decide +kernel, by decide +kernel, ?_, by decide +kernel,
    by decide +kernel, by decide +kernel, ?_⟩
  · intro position member
    obtain rfl := List.mem_singleton.1 member
    decide +kernel
  · have tickets : Tickets partMaker.positions := by
      refine ⟨by decide +kernel, by decide +kernel, by decide +kernel, fun position member => ?_⟩
      obtain rfl := List.mem_singleton.1 member
      exact ⟨.buy, rfl⟩
    obtain ⟨plans, after, run⟩ := ticketRun_exists tickets
      (allocated partMaker.owner.cfg partMaker.owner.book oneThenTwo)
    have here : (opposing partMaker.positions .sell).map (·.quantity) = remaining 0 [3 / 2] := by
      decide +kernel
    have spans := run.spans (by decide +kernel) le_rfl here
    have half : [1 / 2, 3 / 2] ∈ plans.map fun plan => plan.map (·.quantityOunces) := by
      rw [spans]
      decide +kernel
    obtain ⟨plan, planned, parts⟩ := List.mem_map.1 half
    have first : 1 / 2 ∈ plan.map (·.quantityOunces) := by
      rw [parts]
      exact List.mem_cons_self
    obtain ⟨leg, listed, amount⟩ := List.mem_map.1 first
    refine ⟨plans, after, run, plan, planned, leg, listed, ?_⟩
    rw [amount]
    decide +kernel

end Carry

end ArbNautilus.Store
