import ArbNautilus.Base.Cuts
import ArbNautilus.Store.HedgePlan
import Mathlib.Data.Fintype.EquivFin
import Mathlib.Data.String.Basic

/-! Hedges executed one after another, each planned on the tickets the earlier ones left. -/

namespace ArbNautilus.Store

open Base

def hedgeSideOf (ordered : ℤ) : BusinessOrderSide := if 0 < ordered then .sell else .buy

/-- Allocated hedges, SELL positive, their plans, and the tickets before and after. Each hedge is
executed leg by leg before the next is planned, and before each `asked` holds of the open tickets;
the venue names a new ticket apart from the open ones. -/
inductive TicketRun (asked : List Position → ℤ → Prop) :
    List Position → List ℤ → List (List HedgeLeg) → List Position → Prop where
  | nil (positions : List Position) : TicketRun asked positions [] [] positions
  | idle {positions after : List Position} {ns : List ℤ} {plans : List (List HedgeLeg)} :
      TicketRun asked positions ns plans after → TicketRun asked positions (0 :: ns) plans after
  | hedge {positions after : List Position} {n : ℤ} {ns : List ℤ} {plan : List HedgeLeg}
      {plans : List (List HedgeLeg)} (opened : String) (met : asked positions n) (ordered : n ≠ 0)
      (planned : planHedgeDelta positions (hedgeSideOf n) |n| = .ok plan) (named : opened ≠ "")
      (fresh : opened ∉ positions.map (·.id)) :
      TicketRun asked (plan.foldl (executeLeg opened) positions) ns plans after →
      TicketRun asked positions (n :: ns) (plan :: plans) after

/-- The plans of allocated hedges where nothing more is asked of the tickets. -/
def Hedged (positions : List Position) (ns : List ℤ) (plans : List (List HedgeLeg)) : Prop :=
  ∃ after, TicketRun (fun _ _ => True) positions ns plans after

section Tickets

variable {positions : List Position} {side : BusinessOrderSide}

theorem checkPosition_eq_ok {seen all : List String} {position : Position}
    (checked : checkPosition seen position = .ok all) :
    position.id ≠ "" ∧ position.id ∉ seen ∧ (∃ side, position.side = .ok side) ∧
      0 < position.quantity ∧ all = position.id :: seen := by
  simp only [checkPosition, bind_eq_ok, raiseIf_eq_ok, exists_const, pure_eq_ok, not_or,
    not_le] at checked
  obtain ⟨⟨named, fresh⟩, side, ticket, positive, rfl⟩ := checked
  exact ⟨named, fresh, ⟨side, ticket⟩, positive, rfl⟩

theorem checkPositions_tickets {seen all : List String}
    (checked : positions.foldlM checkPosition seen = .ok all) :
    Tickets positions ∧ ∀ position ∈ positions, position.id ∉ seen := by
  induction positions generalizing seen with
  | nil => exact ⟨⟨by simp, by simp, by simp, by simp⟩, by simp⟩
  | cons position positions ih =>
    simp only [List.foldlM_cons, bind_eq_ok] at checked
    obtain ⟨next, turn, checked⟩ := checked
    obtain ⟨named, fresh, sided, positive, rfl⟩ := checkPosition_eq_ok turn
    obtain ⟨rest, others⟩ := ih checked
    have apart : position.id ∉ positions.map (·.id) := by
      intro again
      obtain ⟨other, member, same⟩ := List.mem_map.1 again
      exact others other member (by simp [same])
    refine ⟨⟨?_, ?_, ?_, ?_⟩, ?_⟩
    · exact List.nodup_cons.2 ⟨apart, rest.distinct⟩
    · exact List.forall_mem_cons.2 ⟨named, rest.named⟩
    · exact List.forall_mem_cons.2 ⟨positive, rest.positive⟩
    · exact List.forall_mem_cons.2 ⟨sided, rest.sided⟩
    · refine List.forall_mem_cons.2 ⟨fresh, fun other member known => ?_⟩
      exact others other member (List.mem_cons_of_mem _ known)

/-- A plan was made of well-formed tickets. -/
theorem planHedgeDelta_tickets {quantity : ℚ} {plan : List HedgeLeg}
    (planned : planHedgeDelta positions side quantity = .ok plan) :
    0 < quantity ∧ Tickets positions := by
  simp only [planHedgeDelta, bind_eq_ok, raiseIf_eq_ok, exists_const, not_le] at planned
  obtain ⟨owed, all, checked, -⟩ := planned
  exact ⟨owed, (checkPositions_tickets checked).1⟩

/-- The opposing tickets in closing order are the only such list. -/
theorem opposing_eq {closing : List Position} (distinct : (positions.map (·.id)).Nodup)
    (perm : closing.Perm (positions.filter (Position.opposes side)))
    (ordered : (closing.map (·.id)).Pairwise
      fun id id' => positionIdSortKey id < positionIdSortKey id') :
    opposing positions side = closing := by
  have sorted := opposing_ordered distinct side
  rw [List.pairwise_map] at ordered sorted
  have same : (opposing positions side).Perm closing :=
    ((List.perm_insertionSort _ _).filter _).trans perm.symm
  apply same.eq_of_pairwise _ sorted ordered
  intro a b _ _ less more
  exact absurd (less.trans more) (lt_irrefl _)

theorem opposing_perm (positions : List Position) (side : BusinessOrderSide) :
    (opposing positions side).Perm (positions.filter (Position.opposes side)) :=
  (List.perm_insertionSort _ _).filter _

theorem Tickets.filter (h : Tickets positions) (p : Position → Bool) :
    Tickets (positions.filter p) where
  distinct := h.distinct.sublist (List.filter_sublist.map _)
  named := fun position member => h.named position (List.mem_of_mem_filter member)
  positive := fun position member => h.positive position (List.mem_of_mem_filter member)
  sided := fun position member => h.sided position (List.mem_of_mem_filter member)

end Tickets

section Close

variable {positions rest : List Position} {side : BusinessOrderSide} {target : Position}

/-- The tickets a plan does not close. -/
def spared (side : BusinessOrderSide) (positions : List Position) : List Position :=
  positions.filter fun position => !position.opposes side

theorem first_opposes (first : opposing positions side = target :: rest) :
    target ∈ positions ∧ target.opposes side = true := by
  have member : target ∈ opposing positions side := by rw [first]; exact List.mem_cons_self
  exact List.mem_filter.1 ((opposing_perm positions side).mem_iff.1 member)

theorem first_only (tickets : Tickets positions) (first : opposing positions side = target :: rest)
    {position : Position} (member : position ∈ positions) :
    position.id = target.id ↔ position = target := by
  constructor
  · exact List.inj_on_of_nodup_map tickets.distinct member (first_opposes first).1
  · rintro rfl
    rfl

theorem rest_apart (tickets : Tickets positions) (first : opposing positions side = target :: rest)
    {position : Position} (member : position ∈ rest) : position.id ≠ target.id := by
  have sorted := opposing_ordered tickets.distinct side
  rw [first, List.map_cons, List.pairwise_cons] at sorted
  intro same
  have less := sorted.1 position.id (List.mem_map_of_mem member)
  rw [same] at less
  exact absurd less (lt_irrefl _)

/-- What closing a whole first ticket leaves. -/
theorem close_whole (tickets : Tickets positions)
    (first : opposing positions side = target :: rest) :
    opposing (positions.filter (·.id ≠ target.id)) side = rest ∧
      spared side (positions.filter (·.id ≠ target.id)) = spared side positions := by
  obtain ⟨member, opposes⟩ := first_opposes first
  have sorted := opposing_ordered tickets.distinct side
  have perm := opposing_perm positions side
  rw [first] at sorted perm
  constructor
  · apply opposing_eq (tickets.filter _).distinct
    · have others := perm.filter (·.id ≠ target.id)
      have kept : (target :: rest).filter (·.id ≠ target.id) = rest := by
        rw [List.filter_cons_of_neg (by simp)]
        apply List.filter_eq_self.2
        intro position later
        simpa using rest_apart tickets first later
      rw [kept, List.filter_comm] at others
      exact others
    · exact (List.pairwise_cons.1 sorted).2
  · unfold spared
    rw [List.filter_filter]
    apply List.filter_congr
    intro position here
    by_cases same : position.id = target.id
    · obtain rfl := (first_only tickets first here).1 same
      simp [opposes]
    · simp [same]

/-- A ticket after a part of it is closed. -/
def reduced (target : Position) (amount : ℚ) (position : Position) : Position :=
  if position.id = target.id then { position with quantity := position.quantity - amount }
    else position

@[simp] theorem reduced_id (target : Position) (amount : ℚ) (position : Position) :
    (reduced target amount position).id = position.id := by
  unfold reduced
  split <;> rfl

@[simp] theorem reduced_side (target : Position) (amount : ℚ) (position : Position) :
    (reduced target amount position).side = position.side := by
  unfold reduced
  split <;> rfl

@[simp] theorem reduced_opposes (target : Position) (amount : ℚ) (position : Position) :
    (reduced target amount position).opposes side = position.opposes side := by
  simp [Position.opposes]

/-- What closing a part of the first ticket leaves. -/
theorem close_part (tickets : Tickets positions) (first : opposing positions side = target :: rest)
    {amount : ℚ} (less : amount < target.quantity) :
    positions.filterMap (reduceTicket target.id amount) = positions.map (reduced target amount) ∧
      Tickets (positions.map (reduced target amount)) ∧
      opposing (positions.map (reduced target amount)) side =
        { target with quantity := target.quantity - amount } :: rest ∧
      spared side (positions.map (reduced target amount)) = spared side positions := by
  obtain ⟨member, opposes⟩ := first_opposes first
  have only (position : Position) (here : position ∈ positions) (same : position.id = target.id) :
      position = target := (first_only tickets first here).1 same
  have distinct : ((positions.map (reduced target amount)).map (·.id)).Nodup := by
    rw [List.map_map]
    simpa [Function.comp_def] using tickets.distinct
  refine ⟨?_, ⟨distinct, ?_, ?_, ?_⟩, ?_, ?_⟩
  · rw [← List.filterMap_eq_map]
    apply List.filterMap_congr
    intro position here
    unfold reduceTicket reduced
    by_cases same : position.id = target.id
    · obtain rfl := only position here same
      simp [less.ne']
    · simp [same]
  · intro position here
    obtain ⟨old, listed, rfl⟩ := List.mem_map.1 here
    rw [reduced_id]
    exact tickets.named old listed
  · intro position here
    obtain ⟨old, listed, rfl⟩ := List.mem_map.1 here
    unfold reduced
    split
    · rename_i same
      obtain rfl := only old listed same
      exact sub_pos.2 less
    · exact tickets.positive old listed
  · intro position here
    obtain ⟨old, listed, rfl⟩ := List.mem_map.1 here
    rw [reduced_side]
    exact tickets.sided old listed
  · have sorted := opposing_ordered tickets.distinct side
    have perm := (opposing_perm positions side).map (reduced target amount)
    rw [first] at sorted perm
    have moved : (target :: rest).map (reduced target amount) =
        { target with quantity := target.quantity - amount } :: rest := by
      rw [List.map_cons]
      congr 1
      · simp [reduced]
      · rw [List.map_congr_left (g := id), List.map_id]
        intro position later
        simp [reduced, rest_apart tickets first later]
    rw [moved] at perm
    apply opposing_eq distinct
    · refine perm.trans (.of_eq ?_)
      rw [List.filter_map]
      congr 2
      funext position
      simp
    · exact sorted
  · unfold spared
    rw [List.filter_map]
    have same : ((fun position : Position => !position.opposes side) ∘ reduced target amount) =
        fun position => !position.opposes side := by
      funext position
      simp
    rw [same, List.map_congr_left (g := id), List.map_id]
    intro position here
    obtain ⟨listed, other⟩ := List.mem_filter.1 here
    unfold reduced
    split
    · rename_i same
      obtain rfl := only position listed same
      simp [opposes] at other
    · rfl

end Close

/-- The opposing tickets once an amount of them is closed in order. -/
def leftTickets (amount : ℚ) : List Position → List Position
  | [] => []
  | position :: positions =>
    if amount < position.quantity then
      { position with quantity := position.quantity - amount } :: positions
    else leftTickets (amount - position.quantity) positions

theorem map_leftTickets (amount : ℚ) (closing : List Position) :
    (leftTickets amount closing).map (·.quantity) =
    remaining amount (closing.map (·.quantity)) := by
  induction closing generalizing amount with
  | nil => rfl
  | cons position closing ih =>
    rw [List.map_cons, leftTickets, remaining]
    split
    · rfl
    · exact ih _

theorem leftTickets_zero {closing : List Position}
    (positive : ∀ position ∈ closing, 0 < position.quantity) :
    leftTickets 0 closing = closing := by
  cases closing with
  | nil => rfl
  | cons position closing =>
    rw [leftTickets, if_pos (positive position List.mem_cons_self), sub_zero]

section Execute

variable {positions : List Position} {side : BusinessOrderSide} {opened : String}

/-- What the tickets are once an amount of the opposing ones is closed. -/
structure Closed (side : BusinessOrderSide) (amount : ℚ)
    (positions after : List Position) : Prop where
  tickets : Tickets after
  opposing : opposing after side = leftTickets amount (opposing positions side)
  spared : spared side after = spared side positions
  ids : ∀ position ∈ after, position.id ∈ positions.map (·.id)

theorem executeLeg_close {leg : HedgeLeg} {taken : Position × ℚ}
    (fields : leg.toHedgeLegFields = closeFields side taken) :
    executeLeg opened positions leg = positions.filterMap (reduceTicket taken.1.id taken.2) := by
  unfold executeLeg
  rw [fields]
  rfl

theorem closes_run (tickets : Tickets positions) {amount : ℚ} (owed : 0 < amount)
    {closing : List Position} (same : opposing positions side = closing) {legs : List HedgeLeg}
    (fields : legs.map HedgeLeg.toHedgeLegFields =
      (drain Position.quantity amount closing).1.map (closeFields side)) :
    Closed side amount positions (legs.foldl (executeLeg opened) positions) := by
  induction closing generalizing positions amount legs with
  | nil =>
    obtain rfl : legs = [] := by simpa [drain] using fields
    exact ⟨tickets, by rw [List.foldl_nil, same]; rfl, rfl, fun _ => List.mem_map_of_mem⟩
  | cons target closing ih =>
    have member := (first_opposes same).1
    have positive := tickets.positive target member
    have others : ∀ position ∈ closing, 0 < position.quantity := by
      intro position later
      have listed : position ∈ opposing positions side := by
        rw [same]; exact List.mem_cons_of_mem _ later
      exact tickets.positive position
        (List.mem_of_mem_filter ((opposing_perm _ _).mem_iff.1 listed))
    obtain ⟨whole, apart⟩ := close_whole tickets same
    have removed := filterMap_reduceTicket tickets.distinct member
    have remain : ∀ position ∈ positions.filter (·.id ≠ target.id),
        position.id ∈ positions.map (·.id) :=
      fun position here => List.mem_map_of_mem (List.mem_of_mem_filter here)
    by_cases enough : amount ≤ target.quantity
    · simp only [drain, if_pos enough, List.map_singleton] at fields
      obtain ⟨leg, rfl, field⟩ := List.map_eq_singleton_iff.1 fields
      rw [List.foldl_cons, List.foldl_nil, executeLeg_close field]
      rcases enough.eq_or_lt with all | less
      · dsimp only
        rw [all, removed]
        refine ⟨tickets.filter _, ?_, apart, remain⟩
        rw [whole, same, leftTickets, if_neg (lt_irrefl _), sub_self, leftTickets_zero others]
      · obtain ⟨cut, kept, opposing, spared⟩ := close_part tickets same less
        dsimp only
        rw [cut]
        refine ⟨kept, by rw [opposing, same, leftTickets, if_pos less], spared, ?_⟩
        intro position here
        obtain ⟨old, listed, rfl⟩ := List.mem_map.1 here
        rw [reduced_id]
        exact List.mem_map_of_mem listed
    · simp only [drain, if_neg enough, List.map_cons] at fields
      obtain ⟨leg, legs, rfl, field, fields⟩ := List.map_eq_cons_iff.1 fields
      have run := ih (tickets.filter (·.id ≠ target.id)) (sub_pos.2 (not_le.1 enough)) whole fields
      rw [List.foldl_cons, executeLeg_close field]
      dsimp only
      rw [removed]
      refine ⟨run.tickets, ?_, run.spared.trans apart, ?_⟩
      swap
      · intro position here
        obtain ⟨old, listed, id⟩ := List.mem_map.1 (run.ids position here)
        rw [← id]
        exact remain old listed
      rw [run.opposing, whole, same, leftTickets, if_neg (not_lt.2 (not_le.1 enough).le)]

/-- The ticket that a residual opens. -/
def openedTicket (opened : String) (side : BusinessOrderSide) (quantity : ℚ) : Position :=
  ⟨opened, side = .buy, side = .sell, quantity⟩

theorem openedTicket_side (opened : String) (side : BusinessOrderSide) (quantity : ℚ) :
    (openedTicket opened side quantity).side = .ok side := by
  cases side <;> simp [openedTicket, Position.side]

theorem openedTicket_opposes (opened : String) (side : BusinessOrderSide) (quantity : ℚ) :
    (openedTicket opened side quantity).opposes side = false := by
  cases side <;> simp [Position.opposes, openedTicket_side, BusinessOrderSide.opposite]

theorem open_ticket {after : List Position} (tickets : Tickets after) (named : opened ≠ "")
    (fresh : opened ∉ after.map (·.id)) {left : ℚ} (rest : 0 < left) :
    Tickets (after ++ [openedTicket opened side left]) ∧
      opposing (after ++ [openedTicket opened side left]) side = opposing after side ∧
      spared side (after ++ [openedTicket opened side left]) =
        spared side after ++ [openedTicket opened side left] := by
  have other := openedTicket_opposes opened side left
  have distinct : ((after ++ [openedTicket opened side left]).map (·.id)).Nodup := by
    rw [List.map_append, List.map_singleton]
    apply tickets.distinct.append (List.nodup_singleton _)
    intro id old new
    obtain rfl := List.mem_singleton.1 new
    exact fresh old
  refine ⟨⟨distinct, ?_, ?_, ?_⟩, ?_, ?_⟩
  · exact List.forall_mem_append.2 ⟨tickets.named, by simpa [openedTicket] using named⟩
  · exact List.forall_mem_append.2 ⟨tickets.positive, by simpa [openedTicket] using rest⟩
  · exact List.forall_mem_append.2
      ⟨tickets.sided, by simpa using ⟨side, openedTicket_side opened side left⟩⟩
  · apply opposing_eq distinct
    · rw [List.filter_append, List.filter_cons_of_neg (by simp [other]), List.filter_nil,
        List.append_nil]
      exact opposing_perm after side
    · exact opposing_ordered tickets.distinct side
  · simp [spared, List.filter_append, other]

/-- What one plan, executed, makes of the tickets it was made on. -/
structure Served (side : BusinessOrderSide) (quantity : ℚ) (opened : String)
    (positions : List Position) (plan : List HedgeLeg) (after : List Position) : Prop where
  tickets : Tickets after
  quantities : plan.map (·.quantityOunces) =
    cut 0 quantity ((opposing positions side).map (·.quantity))
  opposing : opposing after side = leftTickets quantity (opposing positions side)
  spared : spared side after = spared side positions ++
    let left := (drain Position.quantity quantity (Store.opposing positions side)).2
    if 0 < left then [openedTicket opened side left] else []

theorem plan_run {quantity : ℚ} {plan : List HedgeLeg}
    (made : planHedgeDelta positions side quantity = .ok plan) (named : opened ≠ "")
    (fresh : opened ∉ positions.map (·.id)) :
    Served side quantity opened positions plan (plan.foldl (executeLeg opened) positions) := by
  obtain ⟨owed, tickets⟩ := planHedgeDelta_tickets made
  obtain ⟨plan', made', planned⟩ := planHedgeDelta_drains tickets side owed
  obtain rfl : plan = plan' := Except.ok.inj (made.symm.trans made')
  obtain ⟨closes, opens, rfl, closing, opening⟩ := List.map_eq_append_iff.1 planned.fields
  have run := @closes_run positions side opened tickets quantity owed _ rfl closes closing
  have positive : ∀ position ∈ Store.opposing positions side, 0 < position.quantity :=
    fun position member => tickets.positive position
      (List.mem_of_mem_filter ((opposing_perm positions side).mem_iff.1 member))
  have amounts (legs : List HedgeLeg) : legs.map (·.quantityOunces) =
      (legs.map HedgeLeg.toHedgeLegFields).map (·.quantityOunces) := by
    rw [List.map_map]
    rfl
  have spans := drain_cut Position.quantity owed (Store.opposing positions side) positive
  dsimp only at spans
  have quantities : (closes ++ opens).map (·.quantityOunces) =
      cut 0 quantity ((Store.opposing positions side).map (·.quantity)) := by
    rw [amounts, List.map_append, closing, opening, List.map_append, List.map_map, ← spans]
    congr 1
    split <;> rfl
  rw [List.foldl_append]
  by_cases rest : 0 < (drain Position.quantity quantity (Store.opposing positions side)).2
  · rw [if_pos rest] at opening
    obtain ⟨leg, rfl, field⟩ := List.map_eq_singleton_iff.1 opening
    have new : opened ∉ (closes.foldl (executeLeg opened) positions).map (·.id) := by
      intro known
      obtain ⟨position, member, same⟩ := List.mem_map.1 known
      exact fresh (same ▸ run.ids position member)
    obtain ⟨kept, closing', sparing⟩ := @open_ticket side opened _ run.tickets named new _ rest
    have executed : executeLeg opened (closes.foldl (executeLeg opened) positions) leg =
        closes.foldl (executeLeg opened) positions ++ [openedTicket opened side
          (drain Position.quantity quantity (Store.opposing positions side)).2] := by
      unfold executeLeg
      rw [field]
      rfl
    rw [List.foldl_cons, List.foldl_nil, executed]
    exact ⟨kept, quantities, closing'.trans run.opposing, by rw [sparing, run.spared, if_pos rest]⟩
  · rw [if_neg rest] at opening
    obtain rfl := List.map_eq_nil_iff.1 opening
    exact ⟨run.tickets, quantities, run.opposing, by rw [List.foldl_nil, run.spared, if_neg rest,
      List.append_nil]⟩

end Execute

section Runs

variable {positions after : List Position} {side : BusinessOrderSide} {ns : List ℤ}
  {plans : List (List HedgeLeg)} {asked : List Position → ℤ → Prop}

/-- The venue always has a name left. -/
theorem exists_fresh (positions : List Position) :
    ∃ opened, opened ≠ "" ∧ opened ∉ positions.map (·.id) := by
  obtain ⟨opened, new⟩ := Infinite.exists_notMem_finset ("" :: positions.map (·.id)).toFinset
  rw [List.mem_toFinset, List.mem_cons, not_or] at new
  exact ⟨opened, new⟩

theorem ticketRun_exists (tickets : Tickets positions) (ns : List ℤ) :
    ∃ plans after, TicketRun (fun _ _ => True) positions ns plans after := by
  induction ns generalizing positions with
  | nil => exact ⟨[], positions, .nil positions⟩
  | cons n ns ih =>
    by_cases idle : n = 0
    · obtain ⟨plans, after, run⟩ := ih tickets
      exact ⟨plans, after, idle ▸ .idle run⟩
    · have owed : (0 : ℚ) < |(n : ℚ)| := abs_pos.2 (by exact_mod_cast idle)
      obtain ⟨plan, made, -⟩ := planHedgeDelta_drains tickets (hedgeSideOf n) owed
      obtain ⟨opened, named, fresh⟩ := exists_fresh positions
      obtain ⟨plans, after, run⟩ := ih (plan_run made named fresh).tickets
      exact ⟨plan :: plans, after, .hedge opened trivial idle made named fresh run⟩

theorem hedged_exists (tickets : Tickets positions) (ns : List ℤ) :
    ∃ plans, Hedged positions ns plans := by
  obtain ⟨plans, after, run⟩ := ticketRun_exists tickets ns
  exact ⟨plans, after, run⟩

/-- A run that plans anything starts from well-formed tickets. -/
theorem TicketRun.start (run : TicketRun asked positions ns plans after) (some : plans ≠ []) :
    Tickets positions := by
  induction run with
  | nil => exact absurd rfl some
  | idle _ ih => exact ih some
  | hedge opened met ordered planned => exact (planHedgeDelta_tickets planned).2

/-- The spans that hedges of one side take of the opposing tickets, from a start on. -/
def spansFrom (caps : List ℚ) : ℚ → List ℤ → List (List ℚ)
  | _, [] => []
  | gone, n :: ns =>
    if n = 0 then spansFrom caps gone ns
    else cut gone (gone + |n|) caps :: spansFrom caps (gone + |n|) ns

theorem mem_spansFrom {caps : List ℚ} {gone : ℚ} {span : List ℚ} (signs : ∀ n ∈ ns, 0 ≤ n)
    (member : span ∈ spansFrom caps gone ns) :
    ∃ (k : ℕ) (n : ℤ), ns[k]? = some n ∧ 0 < n ∧
      span = cut (gone + (ns.take k).sum) (gone + (ns.take k).sum + n) caps := by
  induction ns generalizing gone with
  | nil => simp [spansFrom] at member
  | cons n ns ih =>
    obtain ⟨sign, signs⟩ := List.forall_mem_cons.1 signs
    have size : |n| = n := abs_of_nonneg sign
    have step (more : ℚ) (start : gone + n = more) (later : span ∈ spansFrom caps more ns) :
        ∃ (k : ℕ) (m : ℤ), (n :: ns)[k]? = some m ∧ 0 < m ∧
          span = cut (gone + ((n :: ns).take k).sum)
          (gone + ((n :: ns).take k).sum + m) caps := by
      obtain ⟨k, m, there, positive, rfl⟩ := ih signs later
      refine ⟨k + 1, m, there, positive, ?_⟩
      rw [List.take_succ_cons, List.sum_cons, Int.cast_add, ← start, add_assoc]
    rw [spansFrom, size] at member
    split at member
    · rename_i idle
      exact step gone (by simp [idle]) member
    · rename_i ordered
      rcases List.mem_cons.1 member with rfl | later
      · exact ⟨0, n, rfl, by omega, by simp⟩
      · exact step (gone + n) rfl later

/-- The side of the hedges does not matter for the spans they take. -/
theorem spansFrom_neg (caps : List ℚ) (gone : ℚ) (ns : List ℤ) :
    spansFrom caps gone (ns.map (- ·)) = spansFrom caps gone ns := by
  induction ns generalizing gone with
  | nil => rfl
  | cons n ns ih => simp only [List.map_cons, spansFrom, neg_eq_zero, abs_neg, ih]

/-- Hedges of one side take adjacent spans of the tickets they started from. -/
theorem TicketRun.spans (run : TicketRun asked positions ns plans after)
    (one : ∀ n ∈ ns, n ≠ 0 → hedgeSideOf n = side) {caps : List ℚ} {gone : ℚ} (start : 0 ≤ gone)
    (here : (opposing positions side).map (·.quantity) = remaining gone caps) :
    plans.map (fun plan => plan.map (·.quantityOunces)) = spansFrom caps gone ns := by
  induction run generalizing gone with
  | nil => rfl
  | idle _ ih =>
    rw [spansFrom, if_pos rfl]
    exact ih (fun n later => one n (List.mem_cons_of_mem _ later)) start here
  | @hedge positions after n ns plan plans opened met ordered planned named fresh run ih =>
    have sided := one n List.mem_cons_self ordered
    rw [sided] at planned
    have served := plan_run planned named fresh
    have more : (0 : ℚ) ≤ |(n : ℚ)| := abs_nonneg _
    have size : ((|n| : ℤ) : ℚ) = |(n : ℚ)| := Int.cast_abs
    have next : (opposing (plan.foldl (executeLeg opened) positions) side).map (·.quantity) =
        remaining (gone + |n|) caps := by
      rw [served.opposing, map_leftTickets, here, size, remaining_remaining more]
    have first : plan.map (·.quantityOunces) = cut gone (gone + |n|) caps := by
      rw [served.quantities, here, cut_remaining start le_rfl, add_zero, size]
    rw [spansFrom, if_neg ordered, List.map_cons, first]
    rw [ih (fun n later => one n (List.mem_cons_of_mem _ later)) (by rw [size] at *; linarith) next]

end Runs

end ArbNautilus.Store
