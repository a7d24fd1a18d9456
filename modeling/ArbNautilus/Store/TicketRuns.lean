import ArbNautilus.Store.CarryBounds
import ArbNautilus.Store.HedgeRuns

/-! The tickets that a run of hedges leaves, and what is asked of them before each hedge. -/

namespace ArbNautilus.Store

open Base

section Net

variable {positions after : List Position} {side : BusinessOrderSide}
  {asked : List Position → ℤ → Prop}
  {ns : List ℤ} {plans : List (List HedgeLeg)}

/-- A SELL of ounces lowers the net position by as many. -/
theorem signed_side (n : ℤ) : (hedgeSideOf n).sign * |(n : ℚ)| = -(n : ℚ) := by
  unfold hedgeSideOf
  split
  · rename_i sell
    rw [abs_of_pos (by exact_mod_cast sell)]
    simp [BusinessOrderSide.sign]
  · rename_i buy
    rw [abs_of_nonpos (by exact_mod_cast not_lt.1 buy)]
    simp [BusinessOrderSide.sign]

theorem plan_net {quantity : ℚ} {plan : List HedgeLeg}
    (made : planHedgeDelta positions side quantity = .ok plan) (opened : String) :
    netOunces (plan.foldl (executeLeg opened) positions) =
      netOunces positions + side.sign * quantity := by
  obtain ⟨owed, tickets⟩ := planHedgeDelta_tickets made
  obtain ⟨plan', made', planned⟩ := planHedgeDelta_drains tickets side owed
  obtain rfl : plan = plan' := Except.ok.inj (made.symm.trans made')
  rw [(planned.executes tickets opened).net planned.sides, planned.sum]

/-- A run moves the net position by what was allocated. -/
theorem TicketRun.net (run : TicketRun asked positions ns plans after) :
    netOunces after = netOunces positions - (ns.sum : ℤ) := by
  induction run with
  | nil => simp
  | idle _ ih => simpa using ih
  | @hedge positions after n ns plan plans opened met ordered planned named fresh run ih =>
    rw [ih, plan_net planned, signed_side, List.sum_cons]
    push_cast
    ring

theorem TicketRun.tickets (run : TicketRun asked positions ns plans after)
    (tickets : Tickets positions) :
    Tickets after := by
  induction run with
  | nil => exact tickets
  | idle _ ih => exact ih tickets
  | hedge opened _ _ planned named fresh _ ih => exact ih (plan_run planned named fresh).tickets

/-- Hedges in progress: whole ones, then the first legs of the next. -/
inductive Reaches (asked : List Position → ℤ → Prop) (positions : List Position) :
    List ℤ → List Position → Prop where
  | whole {after : List Position} {done : List ℤ} {plans : List (List HedgeLeg)}
    (pending : List ℤ) :
      TicketRun asked positions done plans after → Reaches asked positions (done ++ pending) after
  | part {mid : List Position} {done : List ℤ} {plans : List (List HedgeLeg)} {n : ℤ}
      {plan : List HedgeLeg} (opened : String) (pending : List ℤ) (legs : ℕ) (ordered : n ≠ 0)
      (planned : planHedgeDelta mid (hedgeSideOf n) |n| = .ok plan) :
      TicketRun asked positions done plans mid →
      Reaches asked positions (done ++ n :: pending)
        ((plan.take legs).foldl (executeLeg opened) mid)

theorem Executes.take {opened : String} {plan : List HedgeLeg} (legs : ℕ)
    (h : Executes opened positions plan) : Executes opened positions (plan.take legs) := by
  induction plan generalizing positions legs with
  | nil => simpa using h
  | cons leg plan ih =>
    cases legs with
    | zero => trivial
    | succ legs => exact ⟨h.1, ih legs h.2⟩

theorem planQuantity_take (plan : List HedgeLeg) (legs : ℕ) :
    0 ≤ planQuantity (plan.take legs) ∧ planQuantity (plan.take legs) ≤ planQuantity plan := by
  have nonneg (legs : List HedgeLeg) : 0 ≤ planQuantity legs := by
    apply List.sum_nonneg
    intro q member
    obtain ⟨leg, -, rfl⟩ := List.mem_map.1 member
    exact leg.quantity_pos.le
  have split : planQuantity plan =
      planQuantity (plan.take legs) + planQuantity (plan.drop legs) := by
    rw [planQuantity, planQuantity, planQuantity, ← List.sum_append, ← List.map_append,
      List.take_append_drop]
  exact ⟨nonneg _, by linarith [nonneg (plan.drop legs)]⟩

/-- What was executed of the allocated hedges is what moved the net position. -/
theorem Reaches.executed {ordered : List ℤ} (reached : Reaches asked positions ordered after) :
    ∃ hedged :
      List ℚ, Executed ordered hedged ∧ netOunces after = netOunces positions - hedged.sum := by
  cases reached with
  | @whole _ done plans pending run =>
    refine ⟨_, Executed.of_append done pending, ?_⟩
    rw [run.net, ← Int.cast_list_sum]
  | @part mid done plans n plan opened pending legs ordered planned run =>
    obtain ⟨owed, tickets⟩ := planHedgeDelta_tickets planned
    obtain ⟨plan', made', exact'⟩ := planHedgeDelta_drains tickets (hedgeSideOf n) owed
    obtain rfl : plan = plan' := Except.ok.inj (planned.symm.trans made')
    have moved := ((exact'.executes tickets opened).take legs).net
      (fun leg member => exact'.sides leg (List.mem_of_mem_take member))
    obtain ⟨low, high⟩ := planQuantity_take plan legs
    rw [exact'.sum] at high
    have within : PartOf (n : ℚ) (-((hedgeSideOf n).sign * planQuantity (plan.take legs))) := by
      unfold hedgeSideOf
      split
      · rename_i sell
        have positive : (0 : ℚ) < n := by exact_mod_cast sell
        rw [abs_of_pos positive] at high
        exact .inl ⟨positive.le, by simpa [BusinessOrderSide.sign] using low,
          by simpa [BusinessOrderSide.sign] using high⟩
      · rename_i buy
        have negative : (n : ℚ) ≤ 0 := by exact_mod_cast not_lt.1 buy
        rw [abs_of_nonpos negative] at high
        refine .inr ⟨negative, ?_, ?_⟩
        · simp only [BusinessOrderSide.sign]
          linarith
        · simpa [BusinessOrderSide.sign] using low
    refine ⟨_, Executed.of_part done pending within, ?_⟩
    rw [moved, run.net, List.sum_append, List.sum_singleton, ← Int.cast_list_sum]
    ring

end Net

section Partition

variable {positions after after' : List Position} {side : BusinessOrderSide}
  {asked asked' : List Position → ℤ → Prop} {ns ns' : List ℤ} {plans plans' : List (List HedgeLeg)}

theorem leftTickets_leftTickets {gone more : ℚ} (some' : 0 ≤ more) (closing : List Position) :
    leftTickets more (leftTickets gone closing) = leftTickets (gone + more) closing := by
  induction closing generalizing gone more with
  | nil => rfl
  | cons position closing ih =>
    by_cases part : gone < position.quantity
    · rw [leftTickets, if_pos part, leftTickets, leftTickets]
      by_cases both : gone + more < position.quantity
      · have inside : more < position.quantity - gone := by linarith
        rw [if_pos both, if_pos inside, sub_sub]
      · have beyond : ¬more < position.quantity - gone := by linarith [not_lt.1 both]
        have shift : more - (position.quantity - gone) = gone + more - position.quantity := by ring
        rw [if_neg both, if_neg beyond, shift]
    · have beyond : ¬gone + more < position.quantity := by linarith [not_lt.1 part]
      have shift : gone - position.quantity + more = gone + more - position.quantity := by ring
      rw [leftTickets, if_neg part, ih some', leftTickets, if_neg beyond, shift]

/-- What hedges of one side leave of the tickets depends on their sum alone. -/
structure Left (side : BusinessOrderSide) (amount : ℚ)
    (positions after : List Position) : Prop where
  opposing : opposing after side = leftTickets amount (opposing positions side)
  spared : spared side positions <+: spared side after

theorem TicketRun.left (run : TicketRun asked positions ns plans after)
    (tickets : Tickets positions)
    (one : ∀ n ∈ ns, n ≠ 0 → hedgeSideOf n = side) :
    Left side ((ns.map (|·|)).sum : ℤ) positions after := by
  induction run with
  | nil positions =>
    have positive : ∀ position ∈ Store.opposing positions side, 0 < position.quantity :=
      fun position member => tickets.positive position
        (List.mem_of_mem_filter ((opposing_perm positions side).mem_iff.1 member))
    refine ⟨?_, List.prefix_refl _⟩
    simpa using (leftTickets_zero positive).symm
  | idle _ ih => simpa using ih tickets fun n later => one n (List.mem_cons_of_mem _ later)
  | @hedge positions after n ns plan plans opened met ordered planned named fresh run ih =>
    have sided := one n List.mem_cons_self ordered
    rw [sided] at planned
    have served := plan_run planned named fresh
    have rest := ih served.tickets fun n later => one n (List.mem_cons_of_mem _ later)
    have more : (0 : ℚ) ≤ ((ns.map (|·|)).sum : ℤ) := by
      have nonneg : 0 ≤ (ns.map (|·|)).sum := by
        apply List.sum_nonneg
        intro m member
        obtain ⟨n, -, rfl⟩ := List.mem_map.1 member
        exact abs_nonneg n
      exact_mod_cast nonneg
    constructor
    · rw [rest.opposing, served.opposing, leftTickets_leftTickets more, List.map_cons,
        List.sum_cons]
      push_cast
      rfl
    · refine List.IsPrefix.trans ?_ rest.spared
      rw [served.spared]
      exact List.prefix_append _ _

/-- The hedge side of a source side's fills. -/
theorem allocated_side {cfg : OwnerConfig} {b : Book} {r : Route} {source : BusinessOrderSide}
    (small : |cfg.residual b r| ≤ 1 / 2) {fills : List RoutedFill}
    (sided : ∀ fill ∈ fills, fill.record.side = source) :
    ∀ n ∈ emits (cfg.residual b r) (fills.map RoutedFill.signed), n ≠ 0 →
      hedgeSideOf n = source.opposite := by
  intro n member ordered
  cases source with
  | buy =>
    have signs : ∀ x ∈ fills.map RoutedFill.signed, 0 ≤ x := by
      intro x listed
      obtain ⟨fill, there, rfl⟩ := List.mem_map.1 listed
      rw [RoutedFill.signed_buy (sided fill there)]
      exact fill.positive.le
    have nonneg := emits_nonneg small signs n member
    exact if_pos (by omega)
  | sell =>
    have signs : ∀ x ∈ fills.map RoutedFill.signed, x ≤ 0 := by
      intro x listed
      obtain ⟨fill, there, rfl⟩ := List.mem_map.1 listed
      rw [RoutedFill.signed_sell (sided fill there)]
      linarith [fill.positive]
    have nonpos := emits_nonpos small signs n member
    exact if_neg (by omega)

theorem total_signed {source : BusinessOrderSide} {fills : List RoutedFill}
    (sided : ∀ fill ∈ fills, fill.record.side = source) :
    (fills.map RoutedFill.signed).sum = source.sign * RoutedFill.total source fills := by
  induction fills with
  | nil => simp [RoutedFill.total]
  | cons fill fills ih =>
    obtain ⟨side, sided⟩ := List.forall_mem_cons.1 sided
    have rest := ih sided
    simp only [RoutedFill.total, List.map_cons, List.sum_cons, side, if_true] at rest ⊢
    rw [rest, RoutedFill.signed, side]
    ring

theorem sum_abs_of_side {ns : List ℤ} (one : ∀ n ∈ ns, n ≠ 0 → hedgeSideOf n = side) :
    (ns.map (|·|)).sum = |ns.sum| := by
  have signed : (∀ n ∈ ns, 0 ≤ n) ∨ ∀ n ∈ ns, n ≤ 0 := by
    cases side with
    | sell =>
      left
      intro n member
      by_contra negative
      have buy := one n member (by omega)
      rw [hedgeSideOf, if_neg (by omega)] at buy
      cases buy
    | buy =>
      right
      intro n member
      by_contra positive
      have sell := one n member (by omega)
      rw [hedgeSideOf, if_pos (by omega)] at sell
      cases sell
  clear one
  rcases signed with nonneg | nonpos
  · rw [abs_of_nonneg (List.sum_nonneg nonneg), List.map_congr_left (g := id), List.map_id]
    intro n member
    exact abs_of_nonneg (nonneg n member)
  · rw [abs_of_nonpos (sum_nonpos nonpos), List.sum_neg]
    congr 1
    apply List.map_congr_left
    intro n member
    exact abs_of_nonpos (nonpos n member)

end Partition

section Accounts

variable {cfg : OwnerConfig} {b : Book} {r : Route} {positions after after' : List Position}
  {asked asked' : List Position → ℤ → Prop} {plans plans' : List (List HedgeLeg)}

/-- The hedges that fills are allocated to, in their order. -/
def allocated (cfg : OwnerConfig) (b : Book) (fills : List RoutedFill) : List ℤ :=
  (cfg.allocateAll b (fills.map fun fill => (fill.record, fill.fillKey, fill.signed))).2

/-- The residual that fills leave. -/
def residualAfter (cfg : OwnerConfig) (b : Book) (r : Route) (fills : List RoutedFill) : ℚ :=
  cfg.residual
    (cfg.allocateAll b (fills.map fun fill => (fill.record, fill.fillKey, fill.signed))).1 r

theorem allocated_eq {fills : List RoutedFill} (routed : ∀ fill ∈ fills, route fill.record = r) :
    allocated cfg b fills = emits (cfg.residual b r) (fills.map RoutedFill.signed) ∧
      residualAfter cfg b r fills = carryAll (cfg.residual b r) (fills.map RoutedFill.signed) := by
  have both := cfg.allocateAll_eq r b
    (fills.map fun fill => (fill.record, fill.fillKey, fill.signed)) (by
      intro entry member
      obtain ⟨fill, listed, rfl⟩ := List.mem_map.1 member
      exact routed fill listed)
  rw [List.map_map] at both
  exact both

/-- However a source quantity is filled, its hedges leave the same tickets open, unless its last
half ounce is a tie. -/
theorem partition_independent (small : |cfg.residual b r| ≤ 1 / 2) {source : BusinessOrderSide}
    {fills fills' : List RoutedFill} (routed : ∀ fill ∈ fills, route fill.record = r)
    (routed' : ∀ fill ∈ fills', route fill.record = r)
    (sided : ∀ fill ∈ fills, fill.record.side = source)
    (sided' : ∀ fill ∈ fills', fill.record.side = source)
    (same : RoutedFill.total source fills = RoutedFill.total source fills')
    (settled : ∀ k : ℤ, cfg.residual b r + source.sign * RoutedFill.total source fills ≠ k + 1 / 2)
    (tickets : Tickets positions)
    (run : TicketRun asked positions (allocated cfg b fills) plans after)
    (run' : TicketRun asked' positions (allocated cfg b fills') plans' after') :
    opposing after source.opposite = opposing after' source.opposite ∧
      netOunces after = netOunces after' ∧
      spared source.opposite positions <+: spared source.opposite after ∧
      spared source.opposite positions <+: spared source.opposite after' := by
  rw [(allocated_eq routed).1] at run
  rw [(allocated_eq routed').1] at run'
  have one := allocated_side small sided
  have one' := allocated_side small sided'
  have sums : (emits (cfg.residual b r) (fills.map RoutedFill.signed)).sum =
      (emits (cfg.residual b r) (fills'.map RoutedFill.signed)).sum := by
    apply emits_sum_eq small
    · rw [total_signed sided, total_signed sided', same]
    · rw [total_signed sided]
      exact settled
  have left := run.left tickets one
  have left' := run'.left tickets one'
  rw [sum_abs_of_side one] at left
  rw [sum_abs_of_side one', ← sums] at left'
  refine ⟨left.opposing.trans left'.opposing.symm, ?_, left.spared, left'.spared⟩
  rw [run.net, run'.net, sums]

/-- A source order of two ounces, filled at once. -/
def undividedFill :
    List RoutedFill := [⟨(sharedRequest "O-1").record, "O-1|V-1|T-1", 2, by norm_num⟩]

/-- The same order in three parts. -/
def partialFills : List RoutedFill :=
  [⟨(sharedRequest "O-1").record, "O-1|V-1|T-1", 3 / 5, div_pos (by norm_num) (by norm_num)⟩,
    ⟨(sharedRequest "O-1").record, "O-1|V-1|T-2", 3 / 5, div_pos (by norm_num) (by norm_num)⟩,
    ⟨(sharedRequest "O-1").record, "O-1|V-1|T-3", 4 / 5, div_pos (by norm_num) (by norm_num)⟩]

/-- A ticket of half an ounce, another of three, and one of the other side. -/
def openTickets :
    List Position := [⟨"9", true, false, 1 / 2⟩, ⟨"10", true, false, 3⟩, ⟨"7", false, true, 1⟩]

theorem openTickets_valid : Tickets openTickets := by
  refine ⟨by decide +kernel, by decide +kernel, by decide +kernel, fun position member => ?_⟩
  simp only [openTickets, List.mem_cons, List.not_mem_nil, or_false] at member
  rcases member with rfl | rfl | rfl
  · exact ⟨.buy, rfl⟩
  · exact ⟨.buy, rfl⟩
  · exact ⟨.sell, rfl⟩

theorem partition_independent_thirds : ∃ plans plans' after after',
    TicketRun (fun _ _ => True) openTickets [2] plans after ∧
      TicketRun (fun _ _ => True) openTickets [1, 0, 1] plans' after' ∧
      opposing after .sell = opposing after' .sell ∧ netOunces after = netOunces after' := by
  let cfg := SharedSourceAdmission.carryOwner.cfg
  let book := SharedSourceAdmission.carryOwner.book
  obtain ⟨plans, after, run⟩ := ticketRun_exists openTickets_valid [2]
  obtain ⟨plans', after', run'⟩ := ticketRun_exists openTickets_valid [1, 0, 1]
  have zero : cfg.residual book SharedSourceAdmission.carryRoute = 0 := by decide +kernel
  have whole : allocated cfg book undividedFill = [2] := by decide +kernel
  have parts : allocated cfg book partialFills = [1, 0, 1] := by decide +kernel
  have total : RoutedFill.total .buy undividedFill = 2 := by decide +kernel
  have left :=
    @partition_independent cfg book SharedSourceAdmission.carryRoute openTickets after after'
    _ _ plans plans' (by rw [zero]; norm_num) .buy undividedFill partialFills (by decide +kernel)
    (by decide +kernel) (by decide +kernel) (by decide +kernel) (by decide +kernel)
    (by
      intro k tie
      rw [zero, total] at tie
      have twice : (2 * k : ℤ) = 3 := by
        have : (2 : ℚ) * k = 3 := by
          simp only [BusinessOrderSide.sign] at tie
          linarith
        exact_mod_cast this
      omega)
    openTickets_valid (by rw [whole]; exact run) (by rw [parts]; exact run')
  exact ⟨plans, plans', after, after', run, run', left.1, left.2.1⟩

/-- Whatever part of a budget was filled, and however far its hedges went, leg by leg, the two
accounts together stay within the exposure the budget was checked with; once every hedge is done
they differ by the residual. -/
theorem exposure_bounded {buyLeaves sellLeaves exposure hedgeBuy hedgeSell source : ℚ}
    (bounds : makerCarryBounds (cfg.residual b r) buyLeaves sellLeaves =
      .ok (exposure, hedgeBuy, hedgeSell))
    (agree : source + netOunces positions = cfg.residual b r)
    {fills : List RoutedFill} (routed : ∀ fill ∈ fills, route fill.record = r)
    (buys : RoutedFill.total .buy fills ≤ buyLeaves)
    (sells : RoutedFill.total .sell fills ≤ sellLeaves) :
    (Reaches asked positions (allocated cfg b fills) after →
      |source + (fills.map RoutedFill.signed).sum + netOunces after| ≤ exposure ∧
        -hedgeSell ≤ netOunces after - netOunces positions ∧
        netOunces after - netOunces positions ≤ hedgeBuy) ∧
      (TicketRun asked positions (allocated cfg b fills) plans after →
        source + (fills.map RoutedFill.signed).sum + netOunces after = residualAfter cfg b r fills ∧
          |residualAfter cfg b r fills| ≤ 1 / 2) := by
  obtain ⟨hedges, kept⟩ := @allocated_eq cfg b r fills routed
  have within := RoutedFill.within buys sells
  constructor
  · intro reached
    obtain ⟨hedged, executed, net⟩ := reached.executed
    rw [hedges] at executed
    obtain ⟨exposed, low, high⟩ := SharedSourceAdmission.carryBounds_sound bounds within executed
    have split : source + (fills.map RoutedFill.signed).sum + netOunces after =
        cfg.residual b r + (fills.map RoutedFill.signed).sum - hedged.sum := by
      linarith
    rw [split]
    exact ⟨exposed, by linarith, by linarith⟩
  · intro run
    have net := run.net
    have total := carryAll_add_emits (cfg.residual b r) (fills.map RoutedFill.signed)
    rw [hedges] at net
    rw [kept]
    obtain ⟨small, -⟩ := SharedSourceAdmission.carryBounds_valid bounds
    exact ⟨by linarith, abs_carryAll_le small _⟩

theorem exposure_bounded_thirds : ∃ plans after,
    TicketRun (fun _ _ => True) openTickets [1, 0, 1] plans after ∧
      |-(5 / 2) + 2 + netOunces after| ≤ 2 ∧ -(5 / 2) + 2 + netOunces after = 0 := by
  let cfg := SharedSourceAdmission.carryOwner.cfg
  let book := SharedSourceAdmission.carryOwner.book
  obtain ⟨plans, after, run⟩ := ticketRun_exists openTickets_valid [1, 0, 1]
  have zero : cfg.residual book SharedSourceAdmission.carryRoute = 0 := by decide +kernel
  have parts : allocated cfg book partialFills = [1, 0, 1] := by decide +kernel
  have sum : (partialFills.map RoutedFill.signed).sum = 2 := by decide +kernel
  have left : residualAfter cfg book SharedSourceAdmission.carryRoute partialFills = 0 := by
    decide +kernel
  have bounded := @exposure_bounded cfg book SharedSourceAdmission.carryRoute openTickets after
    (fun _ _ => True) plans 2 0 2 0 2 (-(5 / 2)) (by rw [zero]; decide +kernel) (by decide +kernel)
    partialFills (by decide +kernel) (by decide +kernel) (by decide +kernel)
  rw [parts, sum, left] at bounded
  exact ⟨plans, after, run, (bounded.1 (.whole [] run)).1, (bounded.2 run).1⟩

end Accounts

end ArbNautilus.Store
