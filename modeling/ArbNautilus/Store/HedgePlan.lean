import ArbNautilus.Base.Drain
import ArbNautilus.Store.Hedge

namespace ArbNautilus.Store

open Base

/-- Well-formed open tickets: what the native cache of a hedging account holds. -/
structure Tickets (positions : List Position) : Prop where
  distinct : (positions.map (·.id)).Nodup
  named : ∀ position ∈ positions, position.id ≠ ""
  positive : ∀ position ∈ positions, 0 < position.quantity
  sided : ∀ position ∈ positions, ∃ side, position.side = .ok side

def BusinessOrderSide.opposite : BusinessOrderSide → BusinessOrderSide
  | .buy => .sell
  | .sell => .buy

theorem BusinessOrderSide.ne_iff {side other : BusinessOrderSide} :
    other ≠ side ↔ other = side.opposite := by
  cases side <;> cases other <;> simp [opposite]

def Position.opposes (side : BusinessOrderSide) (position : Position) : Bool :=
  position.side = .ok side.opposite

/-- The opposing tickets in the order a plan closes them. -/
def opposing (positions : List Position) (side : BusinessOrderSide) : List Position :=
  (positions.insertionSort Position.before).filter (Position.opposes side)

/-- A ticket's part of the net position. -/
def Position.signed (position : Position) : ℚ :=
  match position.side with
  | .ok side => side.sign * position.quantity
  | .error _ => 0

def netOunces (positions : List Position) : ℚ := (positions.map Position.signed).sum

/-- The venue reduces a ticket, and removes it once nothing is left. -/
def reduceTicket (target : String) (quantity : ℚ) (position : Position) : Option Position :=
  if position.id = target then
    if position.quantity = quantity then none
    else some { position with quantity := position.quantity - quantity }
  else some position

/-- One executed leg; `opened` is the identity the venue gives a new ticket. -/
def executeLeg (opened : String) (positions : List Position) (leg : HedgeLeg) : List Position :=
  match leg.positionId with
  | some target => positions.filterMap (reduceTicket target leg.quantityOunces)
  | none => positions ++ [⟨opened, leg.side = .buy, leg.side = .sell, leg.quantityOunces⟩]

def closeFields (side : BusinessOrderSide) (taken : Position × ℚ) : HedgeLegFields where
  side
  quantityOunces := taken.2
  positionId := some taken.1.id
  expectedPositionSide := some side.opposite
  expectedPositionQuantityOunces := some taken.1.quantity

theorem closeFields_make (side : BusinessOrderSide) (taken : Position × ℚ)
    (named : taken.1.id ≠ "") (positive : 0 < taken.2) (within : taken.2 ≤ taken.1.quantity) :
    ∃ leg, HedgeLegFields.make (closeFields side taken) = .ok leg ∧
      leg.toHedgeLegFields = closeFields side taken := by
  have other : side.opposite ≠ side := by cases side <;> simp [BusinessOrderSide.opposite]
  have checked : (closeFields side taken).postInit = .ok () := by
    simp [HedgeLegFields.postInit, closeFields, named, other, within, positive.trans_le within]
    exact ⟨(), raiseIf_eq_ok.2 (not_le.2 positive)⟩
  refine ⟨⟨_, checked⟩, ?_, rfl⟩
  unfold HedgeLegFields.make
  split
  · rfl
  · rename_i raised
    rw [checked] at raised
    cases raised

theorem openFields_make (side : BusinessOrderSide) {quantity : ℚ} (positive : 0 < quantity) :
    ∃ leg, HedgeLegFields.make { side, quantityOunces := quantity } = .ok leg ∧
      leg.toHedgeLegFields = { side, quantityOunces := quantity } := by
  have checked : (HedgeLegFields.postInit { side, quantityOunces := quantity }) = .ok () := by
    simp [HedgeLegFields.postInit, positive]
  refine ⟨⟨_, checked⟩, ?_, rfl⟩
  unfold HedgeLegFields.make
  split
  · rfl
  · rename_i raised
    rw [checked] at raised
    cases raised

/-- Closing tickets in turn drains the delta from the opposing ones. -/
theorem closeLegs_drains (side : BusinessOrderSide) {remaining : ℚ} (owed : 0 < remaining)
    {positions : List Position} (named : ∀ position ∈ positions, position.id ≠ "")
    (positive : ∀ position ∈ positions, 0 < position.quantity)
    (sided : ∀ position ∈ positions, ∃ side, position.side = .ok side) :
    let drained := drain Position.quantity remaining (positions.filter (Position.opposes side))
    ∃ legs, closeLegs side remaining positions = .ok (drained.2, legs) ∧
      legs.map HedgeLeg.toHedgeLegFields = drained.1.map (closeFields side) := by
  induction positions generalizing remaining with
  | nil => exact ⟨[], rfl, rfl⟩
  | cons position positions ih =>
    obtain ⟨name, named⟩ := List.forall_mem_cons.1 named
    obtain ⟨quantity, positive⟩ := List.forall_mem_cons.1 positive
    obtain ⟨⟨ticketSide, ticket⟩, sided⟩ := List.forall_mem_cons.1 sided
    by_cases same : ticketSide = side
    · subst same
      have spared : position.opposes ticketSide = false := by
        cases ticketSide <;> simp [Position.opposes, ticket, BusinessOrderSide.opposite]
      simp only [List.filter_cons, spared, Bool.false_eq_true, if_false]
      obtain ⟨legs, closed, fields⟩ := ih owed named positive sided
      refine ⟨legs, ?_, fields⟩
      simp only [closeLegs, ticket, bind_eq_ok, Except.ok.injEq, exists_eq_left', if_true]
      exact closed
    · obtain rfl := BusinessOrderSide.ne_iff.1 same
      have opposes : position.opposes side = true := by simp [Position.opposes, ticket]
      simp only [List.filter_cons, opposes, if_true, drain]
      by_cases enough : remaining ≤ position.quantity
      · obtain ⟨leg, made, fields⟩ :=
          closeFields_make side (position, remaining) name owed enough
        unfold closeFields at made
        refine ⟨[leg], ?_, by simp [enough, fields]⟩
        simp only [closeLegs, ticket, bind_eq_ok, Except.ok.injEq, exists_eq_left', same, if_false,
          min_eq_left enough, made, sub_self, if_true, pure_eq_ok, if_pos enough]
      · have rest := not_le.1 enough
        obtain ⟨leg, made, fields⟩ :=
          closeFields_make side (position, position.quantity) name quantity le_rfl
        unfold closeFields at made
        obtain ⟨legs, closed, others⟩ := ih (sub_pos.2 rest) named positive sided
        refine ⟨leg :: legs, ?_, by simp [enough, fields, others]⟩
        simp only [closeLegs, ticket, bind_eq_ok, Except.ok.injEq, exists_eq_left', same, if_false,
          min_eq_right rest.le, made, (sub_pos.2 rest).ne', closed, pure_eq_ok, if_neg enough]

theorem checkPositions_eq_ok {positions : List Position} (h : Tickets positions)
    (seen : List String) (fresh : ∀ position ∈ positions, position.id ∉ seen) :
    ∃ all, positions.foldlM checkPosition seen = .ok all := by
  induction positions generalizing seen with
  | nil => exact ⟨seen, rfl⟩
  | cons position positions ih =>
    obtain ⟨distinct, named, positive, sided⟩ := h
    rw [List.map_cons, List.nodup_cons] at distinct
    obtain ⟨name, named⟩ := List.forall_mem_cons.1 named
    obtain ⟨quantity, positive⟩ := List.forall_mem_cons.1 positive
    obtain ⟨⟨side, ticket⟩, sided⟩ := List.forall_mem_cons.1 sided
    obtain ⟨new, fresh⟩ := List.forall_mem_cons.1 fresh
    obtain ⟨all, rest⟩ := ih ⟨distinct.2, named, positive, sided⟩ (position.id :: seen)
      (by
        intro other member known
        rcases List.mem_cons.1 known with same | old
        · exact distinct.1 (same ▸ List.mem_map_of_mem member)
        · exact fresh other member old)
    refine ⟨all, ?_⟩
    have checked : checkPosition seen position = .ok (position.id :: seen) := by
      simp only [checkPosition, bind_eq_ok, raiseIf_eq_ok, exists_const, pure_eq_ok, and_true]
      exact ⟨not_or.2 ⟨name, new⟩, side, ticket, not_le.2 quantity⟩
    rw [List.foldlM_cons, checked]
    exact rest

/-- What planning makes of well-formed tickets. -/
structure Planned (positions : List Position) (side : BusinessOrderSide) (quantity : ℚ)
    (plan : List HedgeLeg) (taken : List (Position × ℚ)) (left : ℚ) : Prop where
  drained : Drained Position.quantity quantity (opposing positions side) taken left
  fields : plan.map HedgeLeg.toHedgeLegFields = taken.map (closeFields side) ++
    if 0 < left then [{ side, quantityOunces := left }] else []

theorem planHedgeDelta_drains {positions : List Position} (h : Tickets positions)
    (side : BusinessOrderSide) {quantity : ℚ} (owed : 0 < quantity) :
    let drained := drain Position.quantity quantity (opposing positions side)
    ∃ plan, planHedgeDelta positions side quantity = .ok plan ∧
      Planned positions side quantity plan drained.1 drained.2 := by
  obtain ⟨all, checked⟩ := checkPositions_eq_ok h [] (by simp)
  have sorted (p : Position → Prop) (each : ∀ position ∈ positions, p position) :
      ∀ position ∈ positions.insertionSort Position.before, p position :=
    fun position member => each position ((List.mem_insertionSort _).1 member)
  obtain ⟨legs, closed, fields⟩ := closeLegs_drains side owed (sorted _ h.named)
    (sorted _ h.positive) (sorted _ h.sided)
  have drains := drained Position.quantity owed (opposing positions side)
    fun position member => sorted _ h.positive position (List.mem_of_mem_filter member)
  have asked : raiseIf (quantity ≤ 0)
      (Raised.valueError "hedge quantity must be a positive finite Decimal") = .ok () :=
    raiseIf_eq_ok.2 (not_le.2 owed)
  have planned : planHedgeDelta positions side quantity =
      if 0 < (drain Position.quantity quantity (opposing positions side)).2 then
        (HedgeLegFields.make
          { side, quantityOunces :=
          (drain Position.quantity quantity (opposing positions side)).2 }).bind
          fun residual => .ok (legs ++ [residual])
      else .ok legs := by
    unfold planHedgeDelta
    rw [asked, checked, closed]
    rfl
  by_cases rest : 0 < (drain Position.quantity quantity (opposing positions side)).2
  · obtain ⟨residual, made, opened⟩ := openFields_make side rest
    refine ⟨legs ++ [residual], ?_, drains, ?_⟩
    · rw [planned, if_pos rest, made]
      rfl
    · rw [List.map_append, fields, List.map_singleton, opened, if_pos rest]
      rfl
  · refine ⟨legs, ?_, drains, ?_⟩
    · rw [planned, if_neg rest]
    · rw [fields, if_neg rest, List.append_nil]
      rfl

theorem planHedgeDelta_eq_ok {positions : List Position} (h : Tickets positions)
    (side : BusinessOrderSide) {quantity : ℚ} (owed : 0 < quantity) :
    ∃ plan taken left, planHedgeDelta positions side quantity = .ok plan ∧
      Planned positions side quantity plan taken left := by
  obtain ⟨plan, made, planned⟩ := planHedgeDelta_drains h side owed
  exact ⟨plan, _, _, made, planned⟩

/-- Each leg passes its revalidation on the tickets the earlier ones left. -/
def Executes (opened : String) : List Position → List HedgeLeg → Prop
  | _, [] => True
  | positions, leg :: legs =>
    validateHedgeLeg leg positions = .ok () ∧ Executes opened (executeLeg opened positions leg) legs

theorem filter_of_distinct {positions : List Position} (distinct : (positions.map (·.id)).Nodup)
    {position : Position} (member : position ∈ positions) :
    positions.filter (·.id = position.id) = [position] := by
  induction positions with
  | nil => cases member
  | cons head positions ih =>
    rw [List.map_cons, List.nodup_cons] at distinct
    rcases List.mem_cons.1 member with rfl | later
    · have none : positions.filter (·.id = position.id) = [] := by
        rw [List.filter_eq_nil_iff]
        intro other here same
        rw [decide_eq_true_eq] at same
        exact distinct.1 (same ▸ List.mem_map_of_mem here)
      simp [none]
    · have apart : head.id ≠ position.id :=
        fun same => distinct.1 (same ▸ List.mem_map_of_mem later)
      simp [apart, ih distinct.2 later]

/-- A whole close removes its ticket and leaves the others. -/
theorem filterMap_reduceTicket {positions : List Position}
    (distinct : (positions.map (·.id)).Nodup) {position : Position}
    (member : position ∈ positions) :
    positions.filterMap (reduceTicket position.id position.quantity) =
      positions.filter (·.id ≠ position.id) := by
  rw [← List.filterMap_eq_filter]
  apply List.filterMap_congr
  intro other here
  unfold reduceTicket
  by_cases same : other.id = position.id
  · obtain rfl := List.inj_on_of_nodup_map distinct here member same
    simp [Option.guard]
  · simp [Option.guard, same]

theorem validateHedgeLeg_close {leg : HedgeLeg} {side : BusinessOrderSide}
    {taken : Position × ℚ} (fields : leg.toHedgeLegFields = closeFields side taken)
    {positions : List Position} (distinct : (positions.map (·.id)).Nodup)
    (member : taken.1 ∈ positions) (ticket : taken.1.side = .ok side.opposite) :
    validateHedgeLeg leg positions = .ok () := by
  unfold validateHedgeLeg
  simp only [fields, closeFields, filter_of_distinct distinct member, ticket, bind_eq_ok,
    raiseIf_eq_ok, Except.ok.injEq, exists_eq_left', not_true_eq_false, ne_eq, not_false_eq_true,
    exists_const, and_self]

theorem mapM_side {positions : List Position} {side : BusinessOrderSide}
    (sided : ∀ position ∈ positions, position.side = .ok side) :
    positions.mapM Position.side = .ok (positions.map fun _ => side) := by
  induction positions with
  | nil => rfl
  | cons position positions ih =>
    obtain ⟨ticket, sided⟩ := List.forall_mem_cons.1 sided
    rw [List.mapM_cons, ticket, ih sided]
    rfl

theorem validateHedgeLeg_open {leg : HedgeLeg} (opens : leg.positionId = none)
    {positions : List Position} (sided : ∀ position ∈ positions, position.side = .ok leg.side) :
    validateHedgeLeg leg positions = .ok () := by
  unfold validateHedgeLeg
  simp only [opens, mapM_side sided, bind_eq_ok, Except.ok.injEq, exists_eq_left', raiseIf_eq_ok]
  rintro ⟨side, member, other⟩
  obtain ⟨_, -, rfl⟩ := List.mem_map.1 member
  exact other rfl

/-- The legs of a plan run, given the tickets they were taken from. -/
theorem executes_taken (opened : String) {side : BusinessOrderSide} {left : ℚ}
    {taken : List (Position × ℚ)} {positions : List Position} {plan : List HedgeLeg}
    (distinct : (positions.map (·.id)).Nodup)
    (sided : ∀ position ∈ positions, ∃ side, position.side = .ok side)
    (opposed : ∀ t ∈ taken, t.1 ∈ positions ∧ t.1.side = .ok side.opposite)
    (apart : (taken.map fun t => t.1.id).Nodup)
    (whole : ∀ front t back, taken = front ++ t :: back → back ≠ [] ∨ 0 < left →
      t.2 = t.1.quantity)
    (exhausted : 0 < left → ∀ position ∈ positions, position.side = .ok side.opposite →
      ∃ t ∈ taken, t.1 = position)
    (fields : plan.map HedgeLeg.toHedgeLegFields = taken.map (closeFields side) ++
      if 0 < left then [{ side, quantityOunces := left }] else []) :
    Executes opened positions plan := by
  induction taken generalizing positions plan with
  | nil =>
    by_cases rest : 0 < left
    · rw [if_pos rest, List.map_nil, List.nil_append] at fields
      obtain ⟨leg, rfl, last⟩ := List.map_eq_singleton_iff.1 fields
      refine ⟨validateHedgeLeg_open (by rw [last]) fun position member => ?_, trivial⟩
      obtain ⟨ticketSide, ticket⟩ := sided position member
      rw [ticket, last]
      by_contra other
      have opposite : ticketSide = side.opposite :=
        BusinessOrderSide.ne_iff.1 fun same => other (by rw [same])
      obtain ⟨t, none, -⟩ := exhausted rest position member (by rw [ticket, opposite])
      cases none
    · rw [if_neg rest, List.map_nil, List.nil_append, List.map_eq_nil_iff] at fields
      subst fields
      trivial
  | cons t taken ih =>
    rw [List.map_cons, List.cons_append] at fields
    obtain ⟨leg, legs, rfl, first, others⟩ := List.map_eq_cons_iff.1 fields
    obtain ⟨⟨member, ticket⟩, opposed⟩ := List.forall_mem_cons.1 opposed
    rw [List.map_cons, List.nodup_cons] at apart
    refine ⟨validateHedgeLeg_close first distinct member ticket, ?_⟩
    by_cases last : taken = [] ∧ ¬0 < left
    · obtain ⟨rfl, done⟩ := last
      rw [if_neg done, List.map_nil, List.nil_append, List.map_eq_nil_iff] at others
      subst others
      trivial
    · have full : t.2 = t.1.quantity := by
        apply whole [] t taken rfl
        by_cases none : taken = []
        · exact .inr (not_not.1 fun rest => last ⟨none, rest⟩)
        · exact .inl none
      have executed : executeLeg opened positions leg = positions.filter (·.id ≠ t.1.id) := by
        rw [← filterMap_reduceTicket distinct member, ← full]
        simp only [executeLeg, first, closeFields]
      rw [executed]
      refine ih (distinct.sublist (List.filter_sublist.map _))
        (fun position kept => sided position (List.mem_of_mem_filter kept)) ?_ apart.2
        (fun front u back split more => whole (t :: front) u back (by rw [split]; rfl) more)
        ?_ others
      · intro u listed
        refine ⟨List.mem_filter.2 ⟨(opposed u listed).1, ?_⟩, (opposed u listed).2⟩
        rw [decide_eq_true_eq]
        exact fun same => apart.1 (same ▸ List.mem_map_of_mem (f := fun t => t.1.id) listed)
      · intro rest position kept opposite
        obtain ⟨here, other⟩ := List.mem_filter.1 kept
        obtain ⟨u, listed, rfl⟩ := exhausted rest position here opposite
        rcases List.mem_cons.1 listed with rfl | later
        · simp at other
        · exact ⟨u, later, rfl⟩

theorem netOunces_cons (position : Position) (positions : List Position) :
    netOunces (position :: positions) = position.signed + netOunces positions := by
  simp [netOunces]

theorem netOunces_reduce {positions : List Position} {position : Position} {target : String}
    (only : positions.filter (·.id = target) = [position]) {side : BusinessOrderSide}
    (ticket : position.side = .ok side) (quantity : ℚ) :
    netOunces (positions.filterMap (reduceTicket target quantity)) =
      netOunces positions - side.sign * quantity := by
  induction positions with
  | nil => cases only
  | cons head positions ih =>
    by_cases hit : head.id = target
    · simp only [List.filter_cons, hit, decide_true, if_true, List.cons.injEq] at only
      obtain ⟨rfl, none⟩ := only
      have others : positions.filterMap (reduceTicket target quantity) = positions := by
        rw [List.filter_eq_nil_iff] at none
        conv_rhs => rw [← List.filterMap_some (l := positions)]
        apply List.filterMap_congr
        intro other member
        unfold reduceTicket
        rw [if_neg (by simpa using none other member)]
      have signed : head.signed = side.sign * head.quantity := by
        unfold Position.signed
        rw [ticket]
      rw [netOunces_cons, signed]
      by_cases gone : head.quantity = quantity
      · rw [List.filterMap_cons_none (by simp [reduceTicket, hit, gone]), others, gone]
        ring
      · have kept : Position.signed { head with quantity := head.quantity - quantity } =
            side.sign * (head.quantity - quantity) := by
          have ticket' : Position.side { head with quantity := head.quantity - quantity } =
            .ok side := ticket
          unfold Position.signed
          rw [ticket']
        rw [List.filterMap_cons_some (b := { head with quantity := head.quantity - quantity })
          (by simp [reduceTicket, hit, gone]), others, netOunces_cons, kept]
        ring
    · have kept : reduceTicket target quantity head = some head := by simp [reduceTicket, hit]
      simp only [List.filter_cons, hit, decide_false, Bool.false_eq_true, if_false] at only
      rw [List.filterMap_cons_some kept, netOunces_cons, netOunces_cons, ih only]
      ring

/-- A leg that passes its revalidation moves the net position by its signed quantity. -/
theorem executeLeg_net (opened : String) {positions : List Position} {leg : HedgeLeg}
    (valid : validateHedgeLeg leg positions = .ok ()) :
    netOunces (executeLeg opened positions leg) =
      netOunces positions + leg.side.sign * leg.quantityOunces := by
  unfold validateHedgeLeg at valid
  unfold executeLeg
  cases target : leg.positionId with
  | none =>
    have ticket : Position.side ⟨opened, leg.side = .buy, leg.side = .sell, leg.quantityOunces⟩ =
        .ok leg.side := by
      cases side : leg.side <;> simp [Position.side]
    simp only [netOunces, List.map_append, List.sum_append, List.map_singleton,
      List.sum_singleton, Position.signed, ticket]
  | some target' =>
    rw [target] at valid
    dsimp only at valid
    split at valid
    · rename_i position only
      simp only [bind_eq_ok, raiseIf_eq_ok, exists_const, not_not] at valid
      obtain ⟨side, ticket, expected, -⟩ := valid
      have opposite : side = leg.side.opposite := by
        have checked := leg.checked
        simp only [HedgeLegFields.postInit, target, Option.isSome_some, if_true, bind_eq_ok,
          raiseIf_eq_ok, exists_const] at checked
        rw [← BusinessOrderSide.ne_iff]
        rintro rfl
        exact checked.2.2.2.2.1 expected.symm
      rw [netOunces_reduce only ticket, opposite]
      cases leg.side <;> simp [BusinessOrderSide.opposite, BusinessOrderSide.sign, sub_eq_add_neg]
    · cases valid

theorem Executes.net {opened : String} {side : BusinessOrderSide} {plan : List HedgeLeg}
    {positions : List Position} (h : Executes opened positions plan)
    (sides : ∀ leg ∈ plan, leg.side = side) :
    netOunces (plan.foldl (executeLeg opened) positions) =
      netOunces positions + side.sign * planQuantity plan := by
  induction plan generalizing positions with
  | nil => simp [planQuantity]
  | cons leg plan ih =>
    obtain ⟨first, sides⟩ := List.forall_mem_cons.1 sides
    rw [List.foldl_cons, ih h.2 sides, executeLeg_net opened h.1, first]
    simp only [planQuantity, List.map_cons, List.sum_cons]
    ring

theorem positionIdSortKey_id (id : String) :
    (ofLex (ofLex (positionIdSortKey id)).2).2 = id := by
  unfold positionIdSortKey
  split <;> rfl

/-- Tickets with different identities are never level. -/
theorem positionIdSortKey_injective : Function.Injective positionIdSortKey := by
  intro id id' same
  rw [← positionIdSortKey_id id, same, positionIdSortKey_id]

theorem opposing_ordered {positions : List Position} (distinct : (positions.map (·.id)).Nodup)
    (side : BusinessOrderSide) : ((opposing positions side).map (·.id)).Pairwise
      fun id id' => positionIdSortKey id < positionIdSortKey id' := by
  have ordered : (positions.insertionSort Position.before).Pairwise Position.before := by
    have : Std.Total Position.before := ⟨fun a b => le_total _ _⟩
    have : IsTrans Position Position.before := ⟨fun a b c => le_trans⟩
    exact List.pairwise_insertionSort _ _
  have apart : ((positions.insertionSort Position.before).map (·.id)).Nodup :=
    (List.Perm.map _ (List.perm_insertionSort _ _)).nodup_iff.2 distinct
  rw [List.Nodup, List.pairwise_map] at apart
  rw [opposing, List.pairwise_map]
  exact ((ordered.and apart).imp fun ⟨le, other⟩ =>
    lt_of_le_of_ne le fun same => other (positionIdSortKey_injective same)).filter _

/-- A plan of a signed delta, exact against the tickets it was made from. -/
structure Exact (positions : List Position) (side : BusinessOrderSide) (quantity : ℚ)
    (plan : List HedgeLeg) : Prop where
  sum : planQuantity plan = quantity
  sides : ∀ leg ∈ plan, leg.side = side
  /-- The closes name the first opposing tickets, in PositionId order, each once. -/
  named : plan.filterMap (·.positionId) <+: (opposing positions side).map (·.id)
  ordered : (plan.filterMap (·.positionId)).Pairwise
    fun id id' => positionIdSortKey id < positionIdSortKey id'
  targets : ∀ leg ∈ plan, ∀ id ∈ leg.positionId, ∃ position ∈ positions, position.id = id ∧
    position.side = .ok side.opposite ∧ leg.quantityOunces ≤ position.quantity
  spared : ∀ position ∈ positions, position.side = .ok side →
    ∀ leg ∈ plan, leg.positionId ≠ some position.id
  /-- Every leg but the last closes its whole ticket. -/
  whole : ∀ front leg back, plan = front ++ leg :: back → back ≠ [] →
    ∃ position ∈ positions, leg.positionId = some position.id ∧
      leg.quantityOunces = position.quantity
  opens : ∀ leg ∈ plan, leg.positionId = none → ∀ position ∈ positions,
    position.side = .ok side.opposite → ∃ close ∈ plan, close.positionId = some position.id ∧
      close.quantityOunces = position.quantity
  executes : ∀ opened, Executes opened positions plan
  net : ∀ opened, netOunces (plan.foldl (executeLeg opened) positions) =
    netOunces positions + side.sign * quantity

section Planned

variable {positions : List Position} {side : BusinessOrderSide} {quantity : ℚ}
  {plan : List HedgeLeg} {taken : List (Position × ℚ)} {left : ℚ}

/-- A leg of the plan closes one of the drained tickets, or opens what none could give. -/
theorem Planned.leg (h : Planned positions side quantity plan taken left) {k : ℕ} {leg : HedgeLeg}
    (at' : plan[k]? = some leg) :
    (∃ t, taken[k]? = some t ∧ leg.toHedgeLegFields = closeFields side t) ∨
      k = taken.length ∧ 0 < left ∧ leg.toHedgeLegFields = { side, quantityOunces := left } := by
  have fields : (plan.map HedgeLeg.toHedgeLegFields)[k]? = some leg.toHedgeLegFields := by
    rw [List.getElem?_map, at', Option.map_some]
  rw [h.fields] at fields
  by_cases inside : k < taken.length
  · left
    rw [List.getElem?_append_left (by simpa using inside), List.getElem?_map] at fields
    obtain ⟨t, there, same⟩ := Option.map_eq_some_iff.1 fields
    exact ⟨t, there, same.symm⟩
  · right
    rw [List.getElem?_append_right (by simpa using inside), List.length_map] at fields
    split at fields
    · rename_i rest
      obtain ⟨first, same⟩ := List.getElem?_eq_some_iff.1 fields
      have last : k - taken.length = 0 := by simpa using first
      refine ⟨by omega, rest, ?_⟩
      simp only [last, List.getElem_cons_zero] at same
      exact same.symm
    · simp at fields

theorem Planned.sum (h : Planned positions side quantity plan taken left) :
    planQuantity plan = quantity := by
  have quantities : plan.map (·.quantityOunces) =
      (plan.map HedgeLeg.toHedgeLegFields).map (·.quantityOunces) := by
    rw [List.map_map]
    rfl
  rw [planQuantity, quantities, h.fields, List.map_append, List.sum_append, List.map_map,
    ← h.drained.sum]
  congr 1
  split
  · simp
  · rename_i done
    have zero := h.drained.nonneg
    simp only [List.map_nil, List.sum_nil]
    linarith

theorem Planned.sides (h : Planned positions side quantity plan taken left) :
    ∀ leg ∈ plan, leg.side = side := by
  intro leg member
  obtain ⟨k, at'⟩ := List.mem_iff_getElem?.1 member
  obtain ⟨t, -, fields⟩ | ⟨-, -, fields⟩ := h.leg at' <;> rw [fields]
  rfl

theorem Planned.taken_mem (h : Planned positions side quantity plan taken left)
    {t : Position × ℚ} (member : t ∈ taken) :
    t.1 ∈ positions ∧ t.1.side = .ok side.opposite := by
  have served := h.drained.served.subset (List.mem_map_of_mem member)
  obtain ⟨sorted, opposes⟩ := List.mem_filter.1 served
  exact ⟨(List.mem_insertionSort _).1 sorted, by simpa [Position.opposes] using opposes⟩

theorem Planned.positionIds (h : Planned positions side quantity plan taken left) :
    plan.filterMap (·.positionId) = taken.map (·.1.id) := by
  have ids : plan.filterMap (·.positionId) =
      (plan.map HedgeLeg.toHedgeLegFields).filterMap (·.positionId) := by
    rw [List.filterMap_map]
    rfl
  rw [ids, h.fields, List.filterMap_append]
  have closes : (taken.map (closeFields side)).filterMap (·.positionId) = taken.map (·.1.id) := by
    rw [List.filterMap_map, ← List.filterMap_eq_map]
    rfl
  rw [closes]
  split <;> simp

theorem Planned.exhausted (h : Planned positions side quantity plan taken left) (rest : 0 < left)
    {position : Position} (member : position ∈ positions)
    (opposite : position.side = .ok side.opposite) : ∃ t ∈ taken, t.1 = position := by
  have all := h.drained.exhausted rest
  have listed : position ∈ opposing positions side :=
    List.mem_filter.2 ⟨(List.mem_insertionSort _).2 member, by simp [Position.opposes, opposite]⟩
  rw [← all] at listed
  exact List.mem_map.1 listed

theorem Planned.executes (h : Planned positions side quantity plan taken left)
    (tickets : Tickets positions) (opened : String) : Executes opened positions plan := by
  have apart : (taken.map fun t => t.1.id).Nodup := by
    have sorted := opposing_ordered tickets.distinct side
    have ids := (h.drained.served.map (·.id)).sublist
    rw [List.map_map] at ids
    exact (sorted.sublist ids).imp fun less same => absurd (same ▸ less) (lt_irrefl _)
  exact executes_taken opened tickets.distinct tickets.sided (fun t member => h.taken_mem member)
    apart h.drained.whole (fun rest position member => h.exhausted rest member) h.fields

end Planned

/-- A plan is exact, and each of its legs can run. -/
theorem planHedgeDelta_exact {positions : List Position} (tickets : Tickets positions)
    (side : BusinessOrderSide) {quantity : ℚ} (owed : 0 < quantity) :
    ∃ plan, planHedgeDelta positions side quantity = .ok plan ∧
      Exact positions side quantity plan := by
  obtain ⟨plan, taken, left, made, planned⟩ := planHedgeDelta_eq_ok tickets side owed
  have sum := planned.sum
  have sides := planned.sides
  have served := planned.drained.served.map (·.id)
  rw [List.map_map] at served
  have targets : ∀ leg ∈ plan, ∀ id ∈ leg.positionId, ∃ position ∈ positions, position.id = id ∧
      position.side = .ok side.opposite ∧ leg.quantityOunces ≤ position.quantity := by
    intro leg member id target
    obtain ⟨k, at'⟩ := List.mem_iff_getElem?.1 member
    obtain ⟨t, there, fields⟩ | ⟨-, -, fields⟩ := planned.leg at' <;> rw [fields] at target ⊢
    · obtain ⟨here, opposite⟩ := planned.taken_mem (List.mem_of_getElem? there)
      refine ⟨t.1, here, Option.some.inj target, opposite, ?_⟩
      exact (planned.drained.within t (List.mem_of_getElem? there)).2
    · cases target
  refine ⟨plan, made, sum, sides, ?_, ?_, targets, ?_, ?_, ?_, planned.executes tickets, ?_⟩
  · rw [planned.positionIds]
    exact served
  · rw [planned.positionIds]
    exact (opposing_ordered tickets.distinct side).sublist served.sublist
  · intro position member same leg listed named
    obtain ⟨other, here, id, opposite, -⟩ := targets leg listed position.id named
    obtain rfl := List.inj_on_of_nodup_map tickets.distinct here member id
    rw [same] at opposite
    cases side <;> cases opposite
  · rintro front leg back rfl more
    have at' : (front ++ leg :: back)[front.length]? = some leg := by simp
    have count : (front ++ leg :: back).length =
        taken.length + (if 0 < left then 1 else 0) := by
      have lengths := congrArg List.length planned.fields
      rw [List.length_map] at lengths
      rw [lengths, List.length_append, List.length_map]
      split <;> rfl
    have later := List.length_pos_iff.2 more
    rw [List.length_append, List.length_cons] at count
    obtain ⟨t, there, fields⟩ | ⟨last, rest, -⟩ := planned.leg at'
    · have member := List.mem_of_getElem? there
      refine ⟨t.1, (planned.taken_mem member).1, by rw [fields]; rfl, ?_⟩
      rw [fields]
      obtain ⟨inside, rfl⟩ := List.getElem?_eq_some_iff.1 there
      have split : taken = taken.take front.length ++
          taken[front.length] :: taken.drop (front.length + 1) := by
        rw [List.getElem_cons_drop, List.take_append_drop]
      apply planned.drained.whole _ _ _ split
      by_cases rest : 0 < left
      · exact .inr rest
      · left
        rw [if_neg rest] at count
        rw [ne_eq, List.drop_eq_nil_iff]
        omega
    · rw [if_pos rest] at count
      omega
  · intro leg member opens position here opposite
    obtain ⟨k, at'⟩ := List.mem_iff_getElem?.1 member
    obtain ⟨t, -, fields⟩ | ⟨-, rest, -⟩ := planned.leg at'
    · rw [fields] at opens
      cases opens
    · obtain ⟨t, listed, rfl⟩ := planned.exhausted rest here opposite
      obtain ⟨front, back, split⟩ := List.append_of_mem listed
      have full := planned.drained.whole front t back split (.inr rest)
      have among : closeFields side t ∈ plan.map HedgeLeg.toHedgeLegFields := by
        rw [planned.fields]
        exact List.mem_append_left _ (List.mem_map_of_mem listed)
      obtain ⟨close, inPlan, fields⟩ := List.mem_map.1 among
      exact ⟨close, inPlan, by rw [fields]; rfl, by rw [fields]; exact full⟩
  · intro opened
    rw [(planned.executes tickets opened).net sides, sum]

/-- Three short tickets and one long, numbered out of order, and a BUY beyond all of them. -/
def mixedTickets : List Position := [⟨"10", false, true, 1⟩, ⟨"7", true, false, 5⟩,
  ⟨"9", false, true, 2⟩, ⟨"P-1", false, true, 1 / 2⟩]

theorem planHedgeDelta_exact_mixed : ∃ plan, planHedgeDelta mixedTickets .buy 4 = .ok plan ∧
    Exact mixedTickets .buy 4 plan ∧ plan.map (·.quantityOunces) = [2, 1, 1 / 2, 1 / 2] := by
  have tickets : Tickets mixedTickets := by
    refine ⟨by decide +kernel, by decide +kernel, by decide +kernel, fun position member => ?_⟩
    simp only [mixedTickets, List.mem_cons, List.not_mem_nil, or_false] at member
    rcases member with rfl | rfl | rfl | rfl
    · exact ⟨.sell, rfl⟩
    · exact ⟨.buy, rfl⟩
    · exact ⟨.sell, rfl⟩
    · exact ⟨.sell, rfl⟩
  obtain ⟨plan, made, exact'⟩ := planHedgeDelta_exact tickets .buy (by norm_num : (0 : ℚ) < 4)
  have legs : (planHedgeDelta mixedTickets .buy 4).map (fun plan => plan.map (·.quantityOunces)) =
      .ok [2, 1, 1 / 2, 1 / 2] := by decide +kernel
  rw [made] at legs
  exact ⟨plan, made, exact', Except.ok.inj legs⟩

end ArbNautilus.Store
