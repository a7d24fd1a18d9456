import ArbNautilus.Store.Native
import ArbNautilus.Store.StrictPreflight
import ArbNautilus.Store.TicketRuns

/-! Whether every hedge that the working orders of a bounded carry can lead to fits the lots of the
venue. -/

namespace ArbNautilus.Store

open Base

section Lots

variable {rule : LotRule} {caps : List ℚ} {quantity : ℚ}

/-- No end of the capacities is nearer than the minimum to where a quantity ends, unless there. -/
def LotRule.Apart (rule : LotRule) (caps : List ℚ) (quantity : ℚ) : Prop :=
  ∀ taken, taken <+: caps → taken.sum = quantity ∨
    rule.volumeMin ≤ |taken.sum - quantity| / rule.lotSize

/-- A hedge that leaves no part of a ticket, and takes none, below the minimum. -/
def LotRule.Clear (rule : LotRule) (positions : List Position) (n : ℤ) : Prop :=
  rule.Apart ((opposing positions (hedgeSideOf n)).map (·.quantity)) |n|

theorem LotRule.Apart.tail {c : ℚ} (apart : rule.Apart (c :: caps) quantity) :
    rule.Apart caps (quantity - c) := by
  intro taken front
  have both := apart (c :: taken) (List.cons_prefix_cons.2 ⟨rfl, front⟩)
  rw [List.sum_cons] at both
  rcases both with there | away
  · exact .inl (by linarith)
  · have shift : c + taken.sum - quantity = taken.sum - (quantity - c) := by ring
    rw [shift] at away
    exact .inr away

theorem LotRule.Steps.sub {x y : ℚ} (more : rule.Steps x) (less : rule.Steps y) (below : y < x)
    (least : rule.volumeMin ≤ (x - y) / rule.lotSize) : rule.Steps (x - y) := by
  obtain ⟨steps, whole⟩ := more.whole
  obtain ⟨steps', whole'⟩ := less.whole
  refine ⟨sub_pos.2 below, more.volumes, least, steps - steps', ?_⟩
  rw [sub_div, sub_div, whole, whole', Int.cast_sub]

/-- Beyond the first capacity a quantity goes on by whole steps. -/
theorem LotRule.Apart.rest {c : ℚ} (apart : rule.Apart (c :: caps) quantity)
    (first : rule.Steps c) (steps : rule.Steps quantity) (beyond : c < quantity) :
    rule.Steps (quantity - c) := by
  apply steps.sub first beyond
  rcases apart [c] (by simp) with there | away
  · rw [List.sum_singleton] at there
    exact absurd there beyond.ne
  · rwa [List.sum_singleton, abs_sub_comm, abs_of_pos (sub_pos.2 beyond)] at away

theorem LotRule.Apart.cut (apart : rule.Apart caps quantity) (whole : ∀ c ∈ caps, rule.Steps c)
    (steps : rule.Steps quantity) : ∀ x ∈ cut 0 quantity caps,
      rule.Steps x ∧ ((∃ c ∈ caps, x ≤ c) ∨ x = quantity - caps.sum) := by
  induction caps generalizing quantity with
  | nil =>
    intro x member
    obtain ⟨-, rfl⟩ := mem_piece.1 member
    simpa using steps
  | cons c caps ih =>
    obtain ⟨first, others⟩ := List.forall_mem_cons.1 whole
    have capacities : ∀ c ∈ caps, 0 < c := fun c member => (others c member).positive
    intro x member
    rw [Base.cut, max_self, cut_nonpos (by linarith [first.positive]) le_rfl _ capacities] at member
    by_cases enough : quantity ≤ c
    · rw [min_eq_left enough, cut_empty (sub_nonpos.2 enough) capacities, List.append_nil] at member
      obtain ⟨-, rfl⟩ := mem_piece.1 member
      rw [sub_zero]
      exact ⟨steps, .inl ⟨c, List.mem_cons_self, enough⟩⟩
    · have beyond := not_le.1 enough
      rw [min_eq_right beyond.le] at member
      rcases List.mem_append.1 member with head | later
      · obtain ⟨-, rfl⟩ := mem_piece.1 head
        rw [sub_zero]
        exact ⟨first, .inl ⟨c, List.mem_cons_self, le_rfl⟩⟩
      · obtain ⟨fits, bound⟩ := ih apart.tail others (apart.rest first steps beyond) x later
        refine ⟨fits, ?_⟩
        rcases bound with ⟨c', there, le⟩ | last
        · exact .inl ⟨c', List.mem_cons_of_mem _ there, le⟩
        · refine .inr ?_
          rw [last, List.sum_cons]
          ring

theorem LotRule.Apart.remaining (apart : rule.Apart caps quantity)
    (whole : ∀ c ∈ caps, rule.Steps c) (steps : rule.Steps quantity) :
    ∀ x ∈ remaining quantity caps, rule.Steps x ∧ ∃ c ∈ caps, x ≤ c := by
  induction caps generalizing quantity with
  | nil => simp [Base.remaining]
  | cons c caps ih =>
    obtain ⟨first, others⟩ := List.forall_mem_cons.1 whole
    intro x member
    rw [Base.remaining] at member
    split at member
    · rename_i part
      rcases List.mem_cons.1 member with rfl | later
      · refine ⟨first.sub steps part ?_, c, List.mem_cons_self, by linarith [steps.positive]⟩
        rcases apart [c] (by simp) with there | away
        · rw [List.sum_singleton] at there
          exact absurd there part.ne'
        · rwa [List.sum_singleton, abs_of_pos (sub_pos.2 part)] at away
      · exact ⟨others x later, x, List.mem_cons_of_mem _ later, le_rfl⟩
    · rename_i whole'
      rcases (not_lt.1 whole').eq_or_lt with rfl | beyond
      · have capacities : ∀ c ∈ caps, 0 < c := fun c member => (others c member).positive
        rw [sub_self, remaining_zero capacities] at member
        exact ⟨others x member, x, List.mem_cons_of_mem _ member, le_rfl⟩
      · obtain ⟨fits, c', there, le⟩ :=
          ih apart.tail others (apart.rest first steps beyond) x member
        exact ⟨fits, c', List.mem_cons_of_mem _ there, le⟩

end Lots

section Runs

variable {rule : LotRule} {positions after : List Position} {side : BusinessOrderSide}

theorem opposite_ne (side : BusinessOrderSide) : side.opposite ≠ side := by
  cases side <;> simp [BusinessOrderSide.opposite]

/-- The tickets a plan would close and the ones it spares make up the net position. -/
theorem net_split (tickets : Tickets positions) :
    side.sign * netOunces positions = ((spared side positions).map (·.quantity)).sum -
      ((opposing positions side).map (·.quantity)).sum := by
  have sorted : ((opposing positions side).map (·.quantity)).sum =
      ((positions.filter (Position.opposes side)).map (·.quantity)).sum :=
    ((opposing_perm positions side).map _).sum_eq
  rw [sorted]
  have sided := tickets.sided
  clear sorted tickets
  unfold spared netOunces
  induction positions with
  | nil => simp
  | cons position positions ih =>
    obtain ⟨⟨ticketSide, ticket⟩, sided⟩ := List.forall_mem_cons.1 sided
    have rest := ih sided
    have signed : position.signed = ticketSide.sign * position.quantity := by
      unfold Position.signed
      rw [ticket]
    rw [List.map_cons, List.sum_cons, mul_add, rest, signed, List.filter_cons, List.filter_cons]
    by_cases same : ticketSide = side
    · have other : position.opposes side = false := by
        simp [Position.opposes, ticket, same, (opposite_ne side).symm]
      rw [other, same]
      cases side <;> simp [BusinessOrderSide.sign] <;> ring
    · have opposite := BusinessOrderSide.ne_iff.1 same
      have opposes : position.opposes side = true := by simp [Position.opposes, ticket, opposite]
      rw [opposes, opposite]
      cases side <;> simp [BusinessOrderSide.sign, BusinessOrderSide.opposite] <;> ring

/-- What a hedge has to open is within the position it leaves. -/
theorem opened_le_net (tickets : Tickets positions) (quantity : ℚ) :
    quantity - ((opposing positions side).map (·.quantity)).sum ≤
      quantity + side.sign * netOunces positions := by
  have others : 0 ≤ ((spared side positions).map (·.quantity)).sum := by
    apply List.sum_nonneg
    intro q member
    obtain ⟨position, listed, rfl⟩ := List.mem_map.1 member
    exact (tickets.positive position (List.mem_of_mem_filter listed)).le
  have split := @net_split positions side tickets
  linarith

theorem mem_opposing_or_spared {position : Position} (member : position ∈ positions) :
    position ∈ opposing positions side ∨ position ∈ spared side positions := by
  by_cases opposes : position.opposes side = true
  · exact .inl ((opposing_perm positions side).mem_iff.2 (List.mem_filter.2 ⟨member, opposes⟩))
  · exact .inr (List.mem_filter.2 ⟨member, by simpa using opposes⟩)

/-- Every ticket may be traded whole. -/
def LotRule.Tradable (rule : LotRule) (positions : List Position) : Prop :=
  ∀ position ∈ positions, rule.Admits position.quantity

/-- A hedge that leaves only tickets that may be traded whole. -/
def LotRule.Leaves (rule : LotRule) (positions : List Position) (n : ℤ) : Prop :=
  ∀ plan opened, planHedgeDelta positions (hedgeSideOf n) |n| = .ok plan → opened ≠ "" →
    opened ∉ positions.map (·.id) → rule.Tradable (plan.foldl (executeLeg opened) positions)

/-- One hedge among tickets that may all be traded. -/
theorem LotRule.Tradable.hedge {quantity : ℚ} {plan : List HedgeLeg} {opened : String}
    (traded : rule.Tradable positions) (steps : rule.Steps quantity)
    (apart : rule.Apart ((opposing positions side).map (·.quantity)) quantity)
    (room : ∀ left, 0 < left → left ≤ quantity → left ≤ quantity + side.sign * netOunces positions →
      ∃ y, left ≤ y ∧ rule.Admits y)
    (tickets : Tickets positions) (served : Served side quantity opened positions plan after) :
    (∀ leg ∈ plan, rule.Admits leg.quantityOunces) ∧ rule.Tradable after := by
  have whole : ∀ c ∈ (opposing positions side).map (·.quantity), rule.Admits c := by
    intro c member
    obtain ⟨position, opposes, rfl⟩ := List.mem_map.1 member
    exact traded position
      (List.mem_of_mem_filter ((opposing_perm positions side).mem_iff.1 opposes))
  have fits : ∀ c ∈ (opposing positions side).map (·.quantity), rule.Steps c :=
    fun c member => (LotRule.admits_iff.1 (whole c member)).1
  have sum : 0 ≤ ((opposing positions side).map (·.quantity)).sum :=
    List.sum_nonneg fun c member => (fits c member).positive.le
  have cuts : ∀ x ∈ cut 0 quantity ((opposing positions side).map (·.quantity)), rule.Admits x := by
    intro x member
    obtain ⟨own, bound⟩ := apart.cut fits steps x member
    rcases bound with ⟨c, there, le⟩ | rfl
    · exact own.admits le (whole c there)
    · obtain ⟨y, le, admitted⟩ := room _ own.positive (by linarith) (opened_le_net tickets quantity)
      exact own.admits le admitted
  constructor
  · intro leg member
    apply cuts
    rw [← served.quantities]
    exact List.mem_map_of_mem member
  · intro position member
    rcases @mem_opposing_or_spared after side _ member with opposes | kept
    · rw [served.opposing] at opposes
      have amount :
          position.quantity ∈ remaining quantity ((opposing positions side).map (·.quantity)) := by
        rw [← map_leftTickets]
        exact List.mem_map_of_mem opposes
      obtain ⟨own, c, there, le⟩ := apart.remaining fits steps _ amount
      exact own.admits le (whole c there)
    · rw [served.spared] at kept
      dsimp only at kept
      rcases List.mem_append.1 kept with old | new
      · exact traded position (List.mem_of_mem_filter old)
      · split at new
        · rename_i rest
          obtain rfl := List.mem_singleton.1 new
          apply cuts
          have positive : ∀ position ∈ opposing positions side, 0 < position.quantity :=
            fun position member => (fits _ (List.mem_map_of_mem member)).positive
          have spans :=
            drain_cut Position.quantity steps.positive (opposing positions side) positive
          dsimp only at spans
          rw [← spans, if_pos rest]
          exact List.mem_append_right _ (List.mem_singleton_self _)
        · cases new

theorem size_side (n : ℤ) : -(hedgeSideOf n).sign * (n : ℚ) = |(n : ℚ)| := by
  have signed := signed_side n
  cases side : hedgeSideOf n <;> simp only [side, BusinessOrderSide.sign] at signed ⊢ <;> linarith

/-- Among tickets that may all be traded, hedges that keep clear of the tickets' ends and have room
to open need no quantity that may not be traded, and leave no such ticket. -/
theorem TicketRun.traded {ns : List ℤ} {plans : List (List HedgeLeg)}
    (run : TicketRun rule.Clear positions ns plans after) (traded : rule.Tradable positions)
    (whole : ∀ n ∈ ns, n ≠ 0 → rule.Steps |(n : ℚ)|)
    (room : ∀ (k : ℕ) (n : ℤ), ns[k]? = some n → n ≠ 0 → ∀ left : ℚ, 0 < left → left ≤ |(n : ℚ)| →
      left ≤ -(hedgeSideOf n).sign * (((ns.take (k + 1)).sum : ℤ) - netOunces positions) →
      ∃ y, left ≤ y ∧ rule.Admits y) :
    (∀ plan ∈ plans, ∀ leg ∈ plan, rule.Admits leg.quantityOunces) ∧
      TicketRun rule.Leaves positions ns plans after ∧ rule.Tradable after := by
  induction run with
  | nil positions => exact ⟨by simp, .nil positions, traded⟩
  | idle _ ih =>
    obtain ⟨legs, leaves, left⟩ := ih traded (fun n later => whole n (List.mem_cons_of_mem _ later))
      (by
        intro k m there
        have later := room (k + 1) m (by simpa using there)
        simpa using later)
    exact ⟨legs, .idle leaves, left⟩
  | @hedge positions after n ns plan plans opened met ordered planned named fresh run ih =>
    have now := room 0 n rfl ordered
    have size := size_side n
    -- whatever the venue names a new ticket
    have served (opened : String) (named : opened ≠ "") (fresh : opened ∉ positions.map (·.id)) :
        (∀ leg ∈ plan, rule.Admits leg.quantityOunces) ∧
          rule.Tradable (plan.foldl (executeLeg opened) positions) := by
      have tickets := (planHedgeDelta_tickets planned).2
      apply traded.hedge (whole n List.mem_cons_self ordered) met _ tickets
        (plan_run planned named fresh)
      intro left positive most bound
      apply now left positive most
      rw [List.take_succ_cons, List.take_zero, List.sum_singleton, mul_sub, size]
      linarith
    have legs := served opened named fresh
    have leaves : rule.Leaves positions n := by
      intro plan' opened' planned' named' fresh'
      obtain rfl := Except.ok.inj (planned.symm.trans planned')
      exact (served opened' named' fresh').2
    obtain ⟨others, rest, left⟩ := ih legs.2
      (fun n later => whole n (List.mem_cons_of_mem _ later)) (by
        intro k m there ordered' left positive most bound
        apply room (k + 1) m (by simpa using there) ordered' left positive most
        rw [plan_net planned, signed_side] at bound
        rw [List.take_succ_cons, List.sum_cons]
        push_cast at bound ⊢
        linarith)
    exact ⟨List.forall_mem_cons.2 ⟨legs.1, others⟩,
      .hedge opened leaves ordered planned named fresh rest, left⟩

end Runs

/-- An account and the client that reaches it. -/
structure AccountRoute where
  accountId : String
  clientId : Option String
deriving DecidableEq

structure MakerAccount extends AccountRoute where
  positionOunces : ℚ
  maxLongOunces : ℚ
  maxShortOunces : ℚ

/-- What is read of a quote when its order is admitted or checked again. -/
structure MakerQuote where
  direction : SourceDirection
  sourceAccount : AccountRoute
  hedgeAccount : MakerAccount
  quantityOunces : ℚ

/-- An order of the engine's cache, with its leaves and the client the cache has for it. -/
structure CachedOrder extends Native.Order where
  leavesQty : ℚ
  clientId : Option String

/-- `_account_allows`. -/
def accountAllows (before signedChange capacity maximum minimum : ℚ) (onlyLong : Bool) : Bool :=
  let after := before + signedChange
  if capacity < |signedChange| then false
  else if maximum < |after| ∧ |before| < |after| then false
  else if onlyLong = false then true
  else if before * after < 0 then false
  else ¬(|after| < minimum ∧ |after| < |before|)

def makerHedgeBoundsAllow (account : MakerAccount) (risk : RiskConfig) (buy sell : ℚ) : Bool :=
  [(buy, account.maxLongOunces), (-sell, account.maxShortOunces)].all fun (delta, capacity) =>
    accountAllows account.positionOunces delta capacity risk.hedgeMaxAbs risk.hedgeMinKeepAbs
      risk.onlyLong

/-- A Maker on one pair of accounts, with what it reads of the engine's cache. -/
structure CarryMaker where
  strategyId : String
  sourceInstrumentId : String
  source : AccountRoute
  hedge : AccountRoute
  maxUnhedgedOunces : Option ℚ
  risk : RiskConfig
  owner : MakerStateStore
  sourceHold : Bool
  orders : Dict String CachedOrder
  workingQuotes : Dict String MakerQuote
  positions : List Position
  hedgeQuantityReady : Option (ℚ → Except Raised Bool)

namespace CarryMaker

variable (m : CarryMaker)

/-- `_stores[direction]`. -/
def store (direction : SourceDirection) : StoreState := m.owner.view direction.view

def globalObligationBlock : Bool :=
  m.sourceHold ∨ m.owner.freezePublicationFailed ∨
    m.owner.cfg.sourceBalanceIsAdmissible m.owner.book = false ∨
    ∃ v ∈ m.owner.cfg.viewKeys, (m.owner.view v).haltReason ≠ none ∨
      (m.owner.view v).sourceFreezeReason ≠ none ∨ (m.owner.view v).allCompleted = false ∨
      m.owner.cfg.viewIsAdmissible m.owner.book v = false

def nativeSide : SourceDirection → Native.OrderSide
  | .long => .buy
  | .short => .sell

def businessSide : SourceDirection → BusinessOrderSide
  | .long => .buy
  | .short => .sell

/-- The order, its record and its quote still say the same of an order without fills. -/
def liveWorkingOrderIsExact (direction : SourceDirection) (order : CachedOrder)
    (bound : MakerQuote) :
    Bool :=
  match (m.store direction).sourceOrders.get? order.clientOrderId with
  | none => false
  | some record =>
    order.strategyId = m.strategyId ∧ order.clientId = m.source.clientId ∧
      bound.direction = direction ∧ bound.sourceAccount = m.source ∧
      bound.hedgeAccount.toAccountRoute = m.hedge ∧
      record.sourceAccountId = some bound.sourceAccount.accountId ∧
      record.hedgeAccountId = some bound.hedgeAccount.accountId ∧
      record.sourceClientId = m.source.clientId ∧ record.hedgeClientId = m.hedge.clientId ∧
      (order.accountId = some bound.sourceAccount.accountId ∨
        order.status = .initialized ∧ order.accountId = none) ∧
      order.instrumentId = m.sourceInstrumentId ∧ order.side = nativeSide direction ∧
      record.side = businessSide direction ∧ record.quantityOunces = order.quantity ∧
      record.filledOunces = order.filledQty ∧ order.filledQty = 0 ∧
      order.leavesQty = bound.quantityOunces

/-- The leaves of the LONG orders and of the SHORT ones. -/
def addAmount (direction : SourceDirection) (amounts : ℚ × ℚ) (quantity : ℚ) : ℚ × ℚ :=
  match direction with
  | .long => (amounts.1 + quantity, amounts.2)
  | .short => (amounts.1, amounts.2 + quantity)

/-- One turn of the loop over the stores. -/
def addWorking (quantity : ℚ) (exclude : Option String) (amounts : ℚ × ℚ)
    (direction : SourceDirection) : Option (ℚ × ℚ) :=
  match (m.store direction).activeSourceOrderId with
  | none => some amounts
  | some active =>
    match m.orders.get? active, m.workingQuotes.get? active with
    | some order, some bound =>
      if order.isClosed ∨ m.liveWorkingOrderIsExact direction order bound = false ∨
          exclude = none ∧ order.status ≠ .accepted then none
      else if exclude = some active then
        if quantity ≠ order.leavesQty then none else some amounts
      else some (addAmount direction amounts order.leavesQty)
    | _, _ => none

def carryWorkingLeaves (quote : MakerQuote) (quantity : ℚ) (exclude : Option String) :
    Option (ℚ × ℚ) :=
  if quote.sourceAccount ≠ m.source ∨ quote.hedgeAccount.toAccountRoute ≠ m.hedge ∨
      exclude ≠ none ∧ exclude ≠ (m.store quote.direction).activeSourceOrderId then none
  else [SourceDirection.long, .short].foldlM (m.addWorking quantity exclude)
    (addAmount quote.direction (0, 0) quantity)

/-- The quantities one direction is judged by. -/
def sampled (net : ℚ) (direction : SourceDirection) (largest : ℤ) (cumulative : ℚ)
    (plan : List HedgeLeg) : List ℚ :=
  let side := direction.hedgeSide
  let futureOpen := min (largest : ℚ) (max 0 (cumulative + if side = .sell then -net else net))
  1 :: plan.map (·.quantityOunces) ++
    (m.positions.filter fun position => position.isLong = decide (side = .sell)).map
      (fun position => min (largest : ℚ) position.quantity) ++
    if 0 < futureOpen then [futureOpen] else []

/-- One turn of the loop over the directions. -/
def directionIsExecutable (net residual : ℚ) (both : Bool) (direction : SourceDirection)
    (amount cumulative : ℚ) : Bool :=
  let largest := makerHedgeQuantityBound residual amount direction both
  if amount = 0 ∨ largest = 0 then true
  else match planHedgeDelta m.positions direction.hedgeSide largest with
    | .error _ => false
    | .ok plan =>
      (m.sampled net direction largest cumulative plan).all (quantityReady m.hedgeQuantityReady)

/-- `_carry_source_is_executable`. -/
def carrySourceIsExecutable (quote : MakerQuote) (quantity : ℚ) (exclude : Option String) :
    Except Raised Bool :=
  if m.globalObligationBlock then .ok false
  else match m.carryWorkingLeaves quote quantity exclude with
    | none => .ok false
    | some leaves =>
      let residual := m.owner.cfg.carryResidualOunces m.owner.book
      match makerCarryBounds residual leaves.1 leaves.2 with
      | .error e => .error e
      | .ok (exposure, hedgeBuy, hedgeSell) =>
        if (∀ budget ∈ m.maxUnhedgedOunces, budget < exposure) ∨
            makerHedgeBoundsAllow quote.hedgeAccount m.risk hedgeBuy hedgeSell = false then
              .ok false
        else
          let net := quote.hedgeAccount.positionOunces
          let both : Bool := leaves.1 ≠ 0 ∧ leaves.2 ≠ 0
          .ok (m.directionIsExecutable net residual both .long leaves.1 hedgeSell ∧
            m.directionIsExecutable net residual both .short leaves.2 hedgeBuy)

section Complete

variable {m} {rule : LotRule}

/-- What an executable direction has sampled: one ounce, and the most a hedge can open. -/
theorem directionIsExecutable_room (ready : m.hedgeQuantityReady = some rule.ready)
    {net residual : ℚ}
    {both : Bool} {direction : SourceDirection} {amount cumulative : ℚ}
    (executable : m.directionIsExecutable net residual both direction amount cumulative = true)
    (some' : amount ≠ 0) {n : ℤ} (positive : 0 < n)
    (most : n ≤ makerHedgeQuantityBound residual amount direction both) :
    rule.Steps 1 ∧ ∀ left : ℚ, 0 < left → left ≤ n →
      left ≤ cumulative + (if direction.hedgeSide = .sell then -net else net) →
      ∃ y, left ≤ y ∧ rule.Admits y := by
  unfold directionIsExecutable at executable
  dsimp only at executable
  have ordered : ¬(amount = 0 ∨ makerHedgeQuantityBound residual amount direction both = 0) := by
    rintro (none | none)
    · exact some' none
    · omega
  rw [if_neg ordered] at executable
  cases made : planHedgeDelta m.positions direction.hedgeSide
      (makerHedgeQuantityBound residual amount direction both) with
  | error e => simp [made] at executable
  | ok plan =>
    rw [made] at executable
    dsimp only at executable
    rw [List.all_eq_true] at executable
    have admitted : ∀ q ∈ m.sampled net direction
        (makerHedgeQuantityBound residual amount direction both) cumulative plan,
          rule.Admits q := by
      intro q member
      have sampled := executable q member
      rw [ready] at sampled
      simpa [quantityReady, LotRule.ready] using sampled
    constructor
    · exact (LotRule.admits_iff.1 (admitted 1 (by simp [sampled]))).1
    · intro left owed within bound
      have most' : (n : ℚ) ≤ makerHedgeQuantityBound residual amount direction both := by
        exact_mod_cast most
      have fits : left ≤ min (makerHedgeQuantityBound residual amount direction both : ℚ)
          (max 0 (cumulative + if direction.hedgeSide = .sell then -net else net)) :=
        le_min (within.trans most') (le_max_of_le_right bound)
      refine ⟨_, fits, admitted _ ?_⟩
      unfold sampled
      dsimp only
      rw [if_pos (owed.trans_le fits)]
      simp

end Complete

end CarryMaker

theorem LotRule.Steps.ounces {rule : LotRule} (one : rule.Steps 1) {n : ℕ} (some' : 0 < n) :
    rule.Steps (n : ℚ) := by
  induction n with
  | zero => omega
  | succ n ih =>
    rcases Nat.eq_zero_or_pos n with rfl | before
    · simpa using one
    · push_cast
      exact (ih before).add one

theorem RoutedFill.le_total {fills : List RoutedFill} {fill : RoutedFill} (member : fill ∈ fills) :
    fill.ounces ≤ RoutedFill.total fill.record.side fills := by
  have parts : ∀ q ∈ fills.map (fun other =>
      if other.record.side = fill.record.side then other.ounces else 0), 0 ≤ q := by
    intro q listed
    obtain ⟨other, -, rfl⟩ := List.mem_map.1 listed
    split
    · exact other.positive.le
    · exact le_rfl
  exact List.single_le_sum parts fill.ounces (List.mem_map.2 ⟨fill, member, by simp⟩)

section Carry

variable {m : CarryMaker} {quote : MakerQuote} {quantity : ℚ} {exclude : Option String}
  {rule : LotRule}

/-- What an accepted source order was checked with. -/
theorem carrySourceIsExecutable_eq_ok
    (accepted : m.carrySourceIsExecutable quote quantity exclude = .ok true) :
    ∃ leaves exposure hedgeBuy hedgeSell,
      m.carryWorkingLeaves quote quantity exclude = some leaves ∧
      makerCarryBounds (m.owner.cfg.carryResidualOunces m.owner.book) leaves.1 leaves.2 =
        .ok (exposure, hedgeBuy, hedgeSell) ∧
      m.directionIsExecutable quote.hedgeAccount.positionOunces
        (m.owner.cfg.carryResidualOunces m.owner.book) (leaves.1 ≠ 0 ∧ leaves.2 ≠ 0) .long leaves.1
        hedgeSell = true ∧
      m.directionIsExecutable quote.hedgeAccount.positionOunces
        (m.owner.cfg.carryResidualOunces m.owner.book) (leaves.1 ≠ 0 ∧ leaves.2 ≠ 0) .short leaves.2
        hedgeBuy = true := by
  unfold CarryMaker.carrySourceIsExecutable at accepted
  split at accepted
  · cases accepted
  · split at accepted
    · cases accepted
    · rename_i leaves working
      dsimp only at accepted
      split at accepted
      · cases accepted
      · rename_i exposure hedgeBuy hedgeSell bounds
        split at accepted
        · cases accepted
        · rw [Except.ok.injEq, decide_eq_true_eq] at accepted
          exact ⟨leaves, exposure, hedgeBuy, hedgeSell, working, bounds, accepted⟩

/-- The direction of a hedge's fill was judged by what serves the hedge. -/
theorem CarryMaker.fill_room (ready : m.hedgeQuantityReady = some rule.ready)
    {net residual hedgeBuy hedgeSell : ℚ} {leaves : ℚ × ℚ} (small : |residual| ≤ 1 / 2)
    (long : m.directionIsExecutable net residual (leaves.1 ≠ 0 ∧ leaves.2 ≠ 0) .long leaves.1
      hedgeSell = true)
    (short : m.directionIsExecutable net residual (leaves.1 ≠ 0 ∧ leaves.2 ≠ 0) .short leaves.2
      hedgeBuy = true)
    {fills : List RoutedFill} (buys : RoutedFill.total .buy fills ≤ leaves.1)
    (sells : RoutedFill.total .sell fills ≤ leaves.2) {k : ℕ} {n : ℤ}
    (there : (emits residual (fills.map RoutedFill.signed))[k]? = some n) (ordered : n ≠ 0) :
    rule.Steps 1 ∧ ∀ left : ℚ, 0 < left → left ≤ |(n : ℚ)| →
      left ≤ (if 0 < n then hedgeSell - net else hedgeBuy + net) → ∃ y, left ≤ y ∧
      rule.Admits y := by
  obtain ⟨x, arrival, -⟩ := emits_getElem? there
  have here := arrival
  rw [List.getElem?_map, Option.map_eq_some_iff] at here
  obtain ⟨fill, filled, rfl⟩ := here
  have within := RoutedFill.within buys sells
  have most := single_bounded small within filled there
  have part := RoutedFill.le_total (List.mem_of_getElem? filled)
  have positive := fill.positive
  unfold singleBound at most
  cases side : fill.record.side with
  | buy =>
    rw [side] at most part
    dsimp only at most
    have leaves' : leaves.1 ≠ 0 := by
      intro none
      rw [none] at buys
      linarith
    obtain ⟨nonneg, -⟩ := emit_bounds small within there arrival
      (by rw [RoutedFill.signed_buy side]; exact positive.le)
    have sell : 0 < n := by omega
    have both : decide (leaves.1 ≠ 0 ∧ leaves.2 ≠ 0) = decide (leaves.2 ≠ 0) := by simp [leaves']
    rw [both] at long
    rw [abs_of_pos sell] at most
    rw [if_pos sell, abs_of_pos (by exact_mod_cast sell)]
    have room := m.directionIsExecutable_room ready long leaves' sell most
    simpa [SourceDirection.hedgeSide, sub_eq_add_neg] using room
  | sell =>
    rw [side] at most part
    dsimp only at most
    have leaves' : leaves.2 ≠ 0 := by
      intro none
      rw [none] at sells
      linarith
    obtain ⟨nonpos, -⟩ := emit_bounds_neg small within there arrival
      (by rw [RoutedFill.signed_sell side]; linarith)
    have buy : n < 0 := by omega
    have both : decide (leaves.1 ≠ 0 ∧ leaves.2 ≠ 0) = decide (leaves.1 ≠ 0) := by simp [leaves']
    rw [both] at short
    rw [abs_of_neg buy] at most
    rw [if_neg (by omega), abs_of_neg (by exact_mod_cast buy)]
    have room := m.directionIsExecutable_room ready short leaves' (n := -n) (by omega) most
    simpa [SourceDirection.hedgeSide] using room

/-- What an accepted bounded carry knows of its hedges, however its working orders fill. -/
theorem carrySourceIsExecutable_room (ready : m.hedgeQuantityReady = some rule.ready)
    (accepted : m.carrySourceIsExecutable quote quantity exclude = .ok true) {carry : Route}
    (pool : m.owner.cfg.carryRoute = some carry)
    (portfolio : quote.hedgeAccount.positionOunces = netOunces m.positions) :
    ∃ leaves, m.carryWorkingLeaves quote quantity exclude = some leaves ∧
      ∀ fills : List RoutedFill, (∀ fill ∈ fills, route fill.record = carry) →
        RoutedFill.total .buy fills ≤ leaves.1 → RoutedFill.total .sell fills ≤ leaves.2 →
        ∀ ns, ns = allocated m.owner.cfg m.owner.book fills →
        (∀ n ∈ ns, n ≠ 0 → rule.Steps |(n : ℚ)|) ∧
        ∀ (k : ℕ) (n : ℤ), ns[k]? = some n → n ≠ 0 → ∀ left : ℚ, 0 < left → left ≤ |(n : ℚ)| →
          left ≤ -(hedgeSideOf n).sign * (((ns.take (k + 1)).sum : ℤ) - netOunces m.positions) →
          ∃ y, left ≤ y ∧ rule.Admits y := by
  obtain ⟨leaves, exposure, hedgeBuy, hedgeSell, working, bounds, long, short⟩ :=
    carrySourceIsExecutable_eq_ok accepted
  have residual : m.owner.cfg.carryResidualOunces m.owner.book =
      m.owner.cfg.residual m.owner.book carry := by
    unfold OwnerConfig.carryResidualOunces
    rw [pool]
  rw [residual] at bounds long short
  rw [portfolio] at long short
  refine ⟨leaves, working, fun fills routed buys sells ns hedges => ?_⟩
  obtain ⟨small, -⟩ := SharedSourceAdmission.carryBounds_valid bounds
  have within := RoutedFill.within buys sells
  rw [(@allocated_eq m.owner.cfg m.owner.book _ fills routed).1] at hedges
  subst hedges
  constructor
  · intro n member ordered
    obtain ⟨k, there⟩ := List.mem_iff_getElem?.1 member
    obtain ⟨one, -⟩ := m.fill_room ready small long short buys sells there ordered
    obtain ⟨size, same⟩ := Int.eq_ofNat_of_zero_le (abs_nonneg n)
    have whole : |(n : ℚ)| = (size : ℕ) := by
      rw [← Int.cast_abs, same]
      rfl
    have positive := abs_pos.2 ordered
    rw [whole]
    exact one.ounces (by omega)
  · intro k n there ordered left owed most bound
    obtain ⟨-, room⟩ := m.fill_room ready small long short buys sells there ordered
    apply room left owed most
    have executed := Executed.of_append (K := ℚ)
      ((emits (m.owner.cfg.residual m.owner.book carry) (fills.map RoutedFill.signed)).take (k + 1))
      ((emits (m.owner.cfg.residual m.owner.book carry) (fills.map RoutedFill.signed)).drop (k + 1))
    rw [List.take_append_drop] at executed
    obtain ⟨-, low, high⟩ := SharedSourceAdmission.carryBounds_sound bounds within executed
    rw [← Int.cast_list_sum] at low high
    unfold hedgeSideOf at bound
    split at bound
    · rename_i sell
      rw [if_pos sell]
      simp only [BusinessOrderSide.sign] at bound
      linarith
    · rename_i buy
      rw [if_neg buy]
      simp only [BusinessOrderSide.sign] at bound
      linarith

/-- An accepted bounded carry needs no hedge of a quantity that may not be traded, however its
working orders fill, as long as no hedge ends too near to a ticket's end. -/
theorem carry_preflight_complete (ready : m.hedgeQuantityReady = some rule.ready)
    (accepted : m.carrySourceIsExecutable quote quantity exclude = .ok true) {carry : Route}
    (pool : m.owner.cfg.carryRoute = some carry)
    (portfolio : quote.hedgeAccount.positionOunces = netOunces m.positions)
    (traded : rule.Tradable m.positions) :
    ∃ leaves, m.carryWorkingLeaves quote quantity exclude = some leaves ∧
      ∀ fills : List RoutedFill, (∀ fill ∈ fills, route fill.record = carry) →
        RoutedFill.total .buy fills ≤ leaves.1 → RoutedFill.total .sell fills ≤ leaves.2 →
        ∀ plans after,
          TicketRun rule.Clear m.positions (allocated m.owner.cfg m.owner.book fills) plans after →
          (∀ plan ∈ plans, ∀ leg ∈ plan, rule.Admits leg.quantityOunces) ∧ rule.Tradable after := by
  obtain ⟨leaves, working, hedges⟩ := carrySourceIsExecutable_room ready accepted pool portfolio
  refine ⟨leaves, working, fun fills routed buys sells plans after run => ?_⟩
  obtain ⟨whole, room⟩ := hedges fills routed buys sells _ rfl
  obtain ⟨legs, -, left⟩ := run.traded traded whole room
  exact ⟨legs, left⟩

/-- A Maker that bids two ounces into a ticket of one, on a venue that trades single ounces. -/
def singleLots : LotRule := ⟨100, 1 / 100, 50, 1 / 100⟩

def flatOwner : MakerStateStore :=
  ⟨{ sharedConfig with
      residualLimit := 1 / 2, carryRoute := some SharedSourceAdmission.carryRoute },
    .empty, .empty, false⟩

def bidQuote : MakerQuote :=
  ⟨.long, ⟨"SOURCE-1", some "SOURCE"⟩, ⟨⟨"HEDGE-1", some "HEDGE"⟩, 1, 5, 5⟩, 2⟩

def biddingMaker : CarryMaker where
  strategyId := "MAKER-1"
  sourceInstrumentId := "XAUTUSDT-PERP.BITFINEX"
  source := ⟨"SOURCE-1", some "SOURCE"⟩
  hedge := ⟨"HEDGE-1", some "HEDGE"⟩
  maxUnhedgedOunces := some 3
  risk := ⟨5, 5, 0, 0, false⟩
  owner := flatOwner
  sourceHold := false
  orders := .empty
  workingQuotes := .empty
  positions := [⟨"7", true, false, 1⟩]
  hedgeQuantityReady := some singleLots.ready

def twoOunces : List RoutedFill := [⟨(sharedRequest "O-1").record, "O-1|V-1|T-1", 1, one_pos⟩,
  ⟨(sharedRequest "O-1").record, "O-1|V-1|T-2", 1, one_pos⟩]

/-- The hedges of two fills of an ounce: one closes the ticket, the next opens one. -/
theorem biddingMaker_clear : ∃ plans after,
    TicketRun singleLots.Clear biddingMaker.positions [1, 1] plans after := by
  have clear : singleLots.Clear biddingMaker.positions 1 := by
    have caps : (opposing biddingMaker.positions (hedgeSideOf 1)).map (·.quantity) = [1] := by
      decide +kernel
    intro taken front
    rw [caps] at front
    rcases taken with _ | ⟨t, taken⟩
    · right
      norm_num [singleLots]
    · obtain ⟨rfl, rest⟩ := List.cons_prefix_cons.1 front
      obtain rfl := List.prefix_nil.1 rest
      left
      norm_num
  have tickets : Tickets biddingMaker.positions := by
    refine ⟨by decide +kernel, by decide +kernel, by decide +kernel, fun position member => ?_⟩
    obtain rfl := List.mem_singleton.1 member
    exact ⟨.buy, rfl⟩
  have owed : 0 < |((1 : ℤ) : ℚ)| := by norm_num
  obtain ⟨close, made, -⟩ := planHedgeDelta_drains tickets (hedgeSideOf 1) owed
  obtain ⟨id, named, fresh⟩ := exists_fresh biddingMaker.positions
  have served := plan_run made named fresh
  have gone : leftTickets |((1 : ℤ) : ℚ)| (opposing biddingMaker.positions (hedgeSideOf 1)) =
      [] := by
    decide +kernel
  have left := served.opposing.trans gone
  obtain ⟨opens, made', -⟩ := planHedgeDelta_drains served.tickets (hedgeSideOf 1) owed
  obtain ⟨id', named', fresh'⟩ := exists_fresh (close.foldl (executeLeg id) biddingMaker.positions)
  have clear' : singleLots.Clear (close.foldl (executeLeg id) biddingMaker.positions) 1 := by
    intro taken front
    rw [left, List.map_nil, List.prefix_nil] at front
    right
    rw [front]
    norm_num [singleLots]
  have last := TicketRun.hedge id' clear' one_ne_zero made' named' fresh' (.nil _)
  exact ⟨_, _, .hedge id clear one_ne_zero made named fresh last⟩

theorem biddingMaker_accepts : biddingMaker.carrySourceIsExecutable bidQuote 2 none = .ok true := by
  decide +kernel

theorem biddingMaker_leaves :
    biddingMaker.carryWorkingLeaves bidQuote 2 none = some (2, 0) := by
  decide +kernel

theorem biddingMaker_tradable : singleLots.Tradable biddingMaker.positions := by
  intro position member
  obtain rfl := List.mem_singleton.1 member
  decide +kernel

theorem twoOunces_allocated :
    allocated biddingMaker.owner.cfg biddingMaker.owner.book twoOunces = [1, 1] := by
  decide +kernel

theorem carry_preflight_complete_bid : ∃ plans after,
    TicketRun singleLots.Clear biddingMaker.positions [1, 1] plans after ∧
      (∀ plan ∈ plans, ∀ leg ∈ plan, singleLots.Admits leg.quantityOunces) := by
  obtain ⟨leaves, working, all⟩ := @carry_preflight_complete biddingMaker bidQuote 2 none singleLots
    rfl biddingMaker_accepts SharedSourceAdmission.carryRoute rfl (by decide +kernel)
    biddingMaker_tradable
  obtain rfl : leaves = (2, 0) := Option.some.inj (working.symm.trans biddingMaker_leaves)
  obtain ⟨plans, after, run⟩ := biddingMaker_clear
  have legs := all twoOunces (by decide +kernel) (by decide +kernel) (by decide +kernel) plans after
    (twoOunces_allocated.symm ▸ run)
  exact ⟨plans, after, run, legs.1⟩

end Carry

end ArbNautilus.Store
