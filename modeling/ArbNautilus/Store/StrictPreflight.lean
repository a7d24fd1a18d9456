import ArbNautilus.Base.Schedule
import ArbNautilus.Store.HedgeRuns
import Mathlib.Algebra.Order.Field.Rat

/-! Whether every hedge a strict source order can lead to fits the lots of the venue. -/

namespace ArbNautilus.Store

open Base

/-- The volumes a symbol trades in. -/
structure LotRule where
  lotSize : ℚ
  volumeMin : ℚ
  volumeMax : ℚ
  volumeStep : ℚ

/-- `quantity_to_lots` takes the quantity. -/
def LotRule.Admits (rule : LotRule) (quantity : ℚ) : Prop :=
  0 < min quantity (min rule.lotSize (min rule.volumeMin (min rule.volumeMax rule.volumeStep))) ∧
    rule.volumeMin ≤ quantity / rule.lotSize ∧ quantity / rule.lotSize ≤ rule.volumeMax ∧
    (quantity / rule.lotSize / rule.volumeStep).den = 1

instance LotRule.decidableAdmits (rule : LotRule) (quantity : ℚ) :
    Decidable (rule.Admits quantity) :=
  inferInstanceAs (Decidable (_ ∧ _))

section Rule

variable {rule : LotRule}

/-- Ounces that reach the minimum of a venue with sensible volumes and are whole steps. -/
structure LotRule.Steps (rule : LotRule) (quantity : ℚ) : Prop where
  positive : 0 < quantity
  volumes : 0 < min rule.lotSize (min rule.volumeMin (min rule.volumeMax rule.volumeStep))
  least : rule.volumeMin ≤ quantity / rule.lotSize
  whole : ∃ steps : ℤ, quantity / rule.lotSize / rule.volumeStep = steps

theorem LotRule.admits_iff {quantity : ℚ} :
    rule.Admits quantity ↔ rule.Steps quantity ∧ quantity / rule.lotSize ≤ rule.volumeMax := by
  have whole (x : ℚ) : x.den = 1 ↔ ∃ steps : ℤ, x = steps := by
    constructor
    · intro one
      exact ⟨x.num, (Rat.coe_int_num_of_den_eq_one one).symm⟩
    · rintro ⟨steps, rfl⟩
      rfl
  unfold Admits
  rw [lt_min_iff, whole]
  constructor
  · rintro ⟨⟨positive, volumes⟩, least, most, steps⟩
    exact ⟨⟨positive, volumes, least, steps⟩, most⟩
  · rintro ⟨⟨positive, volumes, least, steps⟩, most⟩
    exact ⟨⟨positive, volumes⟩, least, most, steps⟩

/-- The maximum apart, what is admitted may be put together. -/
theorem LotRule.Steps.add {x y : ℚ} (first : rule.Steps x) (second : rule.Steps y) :
    rule.Steps (x + y) := by
  have lot : 0 < rule.lotSize := (lt_min_iff.1 first.volumes).1
  obtain ⟨steps, whole⟩ := first.whole
  obtain ⟨steps', whole'⟩ := second.whole
  refine ⟨add_pos first.positive second.positive, first.volumes, ?_, steps + steps', ?_⟩
  · rw [add_div]
    linarith [first.least, div_pos second.positive lot]
  · rw [add_div, add_div, whole, whole', Int.cast_add]

theorem LotRule.Steps.admits {x y : ℚ} (steps : rule.Steps x) (le : x ≤ y)
    (admitted : rule.Admits y) : rule.Admits x := by
  have lot : 0 < rule.lotSize := (lt_min_iff.1 steps.volumes).1
  exact LotRule.admits_iff.2
    ⟨steps, (div_le_div_of_nonneg_right le lot.le).trans (LotRule.admits_iff.1 admitted).2⟩

end Rule

def LotRule.ready (rule : LotRule) (quantity : ℚ) : Except Raised Bool :=
  .ok (rule.Admits quantity)

section Preflight

-- `hedge_quantity_ready`
variable (ready : Option (ℚ → Except Raised Bool))

def quantityReady (quantity : ℚ) : Bool :=
  match ready with
  | none => true
  | some ready => match ready quantity with
    | .ok admitted => admitted
    | .error _ => false

def SourceDirection.hedgeSide : SourceDirection → BusinessOrderSide
  | .long => .sell
  | .short => .buy

/-- The plan of the largest hedge, when each of its legs is admitted. -/
def largestPlan (positions : List Position) (direction : SourceDirection) (maxHedgeOunces : ℚ) :
    Option (List HedgeLeg) :=
  match planHedgeDelta positions direction.hedgeSide maxHedgeOunces with
  | .error _ => none
  | .ok plan => if plan.all fun leg => quantityReady ready leg.quantityOunces then some plan
    else none

namespace Maker

/-- Maker's `_source_hedge_is_executable`, in strict mode. -/
def sourceHedgeIsExecutable (positions : List Position) (direction : SourceDirection)
    (sourceQuantityOunces : ℚ) : Bool :=
  let maxHedgeOunces := |roundHedgeOunces sourceQuantityOunces|
  if maxHedgeOunces = 0 then true
  else (largestPlan ready positions direction maxHedgeOunces).isSome

end Maker

namespace Taker

/-- What a Taker knows of its one-shot exit. -/
structure Exit where
  mustReduceOnly : Bool
  positionId : Option String
  positionQuantityOunces : Option ℚ

/-- An exit hedge closes one ticket, always the same. -/
def Exit.bind (exit : Exit) (plan : List HedgeLeg) : Bool × Exit :=
  match plan with
  | [leg] => match leg.positionId with
    | none => (false, exit)
    | some id =>
      if exit.positionId.any (· ≠ id) then (false, exit)
      else (true, { exit with
        positionId := some id
        positionQuantityOunces := leg.expectedPositionQuantityOunces })
  | _ => (false, exit)

/-- Taker's `_source_hedge_is_executable`. -/
def sourceHedgeIsExecutable (exit : Exit) (positions : List Position) (direction : SourceDirection)
    (sourceQuantityOunces : ℚ) : Bool × Exit :=
  let maxHedgeOunces := |roundHedgeOunces sourceQuantityOunces|
  if maxHedgeOunces = 0 then (true, exit)
  else match largestPlan ready positions direction maxHedgeOunces with
    | none => (false, exit)
    | some plan => if exit.mustReduceOnly then exit.bind plan else (true, exit)

end Taker

end Preflight

section Complete

variable {rule : LotRule} {positions : List Position} {direction : SourceDirection} {quantity : ℚ}

/-- The tickets that hedges of a direction close, by their quantities in closing order. -/
def SourceDirection.tickets (direction : SourceDirection) (positions : List Position) : List ℚ :=
  (opposing positions direction.hedgeSide).map (·.quantity)

/-- One of the two strict strategies executes the source quantity. -/
def Executable (rule : LotRule) (exit : Taker.Exit) (positions : List Position)
    (direction : SourceDirection) (quantity : ℚ) : Prop :=
  Maker.sourceHedgeIsExecutable (some rule.ready) positions direction quantity = true ∨
    (Taker.sourceHedgeIsExecutable (some rule.ready) exit positions direction quantity).1 = true

/-- The largest hedge, where there is one, was planned and its legs were admitted. -/
theorem Executable.largest {exit : Taker.Exit}
    (accepted : Executable rule exit positions direction quantity) {largest : ℤ}
    (rounded : nearestEven quantity = largest) (positive : 0 < largest) :
    Tickets positions ∧ ∀ x ∈ cut 0 (largest : ℚ) (direction.tickets positions), rule.Admits x := by
  have size : |roundHedgeOunces quantity| = largest := by
    unfold roundHedgeOunces
    rw [rounded, abs_of_pos positive]
  have planned : ∃ plan, largestPlan (some rule.ready) positions direction largest = some plan := by
    rcases accepted with maker | taker
    · unfold Maker.sourceHedgeIsExecutable at maker
      dsimp only at maker
      rw [size, if_neg positive.ne'] at maker
      exact Option.isSome_iff_exists.1 maker
    · unfold Taker.sourceHedgeIsExecutable at taker
      dsimp only at taker
      rw [size, if_neg positive.ne'] at taker
      cases found : largestPlan (some rule.ready) positions direction largest with
      | none => simp [found] at taker
      | some plan => exact ⟨plan, rfl⟩
  obtain ⟨plan, chosen⟩ := planned
  unfold largestPlan at chosen
  cases made : planHedgeDelta positions direction.hedgeSide largest with
  | error e => simp [made] at chosen
  | ok plan' =>
    simp only [made, Option.ite_none_right_eq_some, List.all_eq_true] at chosen
    obtain ⟨opened, named, fresh⟩ := exists_fresh positions
    have served := plan_run made named fresh
    refine ⟨(planHedgeDelta_tickets made).2, fun x member => ?_⟩
    unfold SourceDirection.tickets at member
    rw [← served.quantities] at member
    obtain ⟨leg, planned, rfl⟩ := List.mem_map.1 member
    simpa [quantityReady, LotRule.ready] using chosen.1 leg planned

/-- What the hedges of a source order's fills take of the tickets. -/
theorem Hedged.taken {plans : List (List HedgeLeg)} (tickets : Tickets positions) {fills : List ℚ}
    (signs : ∀ fill ∈ fills, 0 ≤ fill)
    (run : Hedged positions (emits 0 (fills.map (direction.sign * ·))) plans) :
    plans.map (fun plan => plan.map (·.quantityOunces)) =
      spansFrom (direction.tickets positions) 0 (emits 0 fills) := by
  obtain ⟨after, run⟩ := run
  have positive : ∀ c ∈ direction.tickets positions, 0 < c := by
    intro c member
    obtain ⟨position, opposes, rfl⟩ := List.mem_map.1 member
    exact tickets.positive position
      (List.mem_of_mem_filter ((opposing_perm positions _).mem_iff.1 opposes))
  have nonneg := emits_nonneg (r := (0 : ℚ)) (by norm_num) signs
  have here : (opposing positions direction.hedgeSide).map (·.quantity) =
      remaining 0 (direction.tickets positions) := (remaining_zero positive).symm
  cases direction with
  | long =>
    have same : fills.map (SourceDirection.long.sign * ·) = fills := by
      simp [SourceDirection.sign]
    rw [same] at run
    apply run.spans _ le_rfl here
    intro n member ordered
    have sign := nonneg n member
    exact if_pos (by omega)
  | short =>
    have mirrored : emits 0 (fills.map (SourceDirection.short.sign * ·)) =
        (emits 0 fills).map (- ·) := by
      rw [← emits_neg, neg_zero]
      simp [SourceDirection.sign]
    rw [mirrored] at run
    rw [← spansFrom_neg]
    apply run.spans _ le_rfl here
    intro n member ordered
    obtain ⟨m, there, rfl⟩ := List.mem_map.1 member
    have sign := nonneg m there
    exact if_neg (by omega)

/-- Every ounce that some fills can have hedged by itself is admitted, as it lies on the
tickets, and so is every part that a final tie rounds up to. -/
structure PartsAdmitted (rule : LotRule) (tickets : List ℚ) (quantity : ℚ) : Prop where
  ounces : ∀ m : ℕ, (m : ℚ) + 1 / 2 < quantity →
    ∀ x ∈ cut (m : ℚ) (m + 1) tickets, rule.Admits x
  ties : ∀ m n : ℕ, 0 < n → Even n → quantity = m + n - 1 / 2 →
    ∀ x ∈ cut (m : ℚ) (m + n) tickets, rule.Admits x

/-- Every leg that the fills of a source order lead to is admitted. -/
def FillsAdmitted (rule : LotRule) (positions : List Position) (direction : SourceDirection)
    (quantity : ℚ) : Prop :=
  ∀ fills : List ℚ, (∀ fill ∈ fills, 0 < fill) → fills.sum ≤ quantity →
    ∀ plans, Hedged positions (emits 0 (fills.map (direction.sign * ·))) plans →
      ∀ plan ∈ plans, ∀ leg ∈ plan, rule.Admits leg.quantityOunces

/-- A whole amount that fills first and a fill that is hedged in one piece after it. -/
theorem FillsAdmitted.part (all : FillsAdmitted rule positions direction quantity)
    (tickets : Tickets positions) {m n : ℕ} {fill : ℚ} (positive : 0 < fill)
    (within : m + fill ≤ quantity) (rounded : nearestEven fill = n) (some' : 0 < n) :
    ∀ x ∈ cut (m : ℚ) (m + n) (direction.tickets positions), rule.Admits x := by
  have reached (fills : List ℚ) (signs : ∀ fill ∈ fills, 0 < fill) (sum : fills.sum ≤ quantity)
      (spans : cut (m : ℚ) (m + n) (direction.tickets positions) ∈
        spansFrom (direction.tickets positions) 0 (emits 0 fills)) :
      ∀ x ∈ cut (m : ℚ) (m + n) (direction.tickets positions), rule.Admits x := by
    obtain ⟨plans, run⟩ := hedged_exists tickets (emits 0 (fills.map (direction.sign * ·)))
    rw [← run.taken tickets fun fill member => (signs fill member).le] at spans
    obtain ⟨plan, planned, same⟩ := List.mem_map.1 spans
    rw [← same]
    intro x member
    obtain ⟨leg, part, rfl⟩ := List.mem_map.1 member
    exact all fills signs sum plans run plan planned leg part
  have ordered : (n : ℤ) ≠ 0 := by omega
  rcases Nat.eq_zero_or_pos m with rfl | before
  · apply reached [fill] (by simpa using positive) (by simpa using within)
    simp [emits, rounded, spansFrom, some'.ne']
  · have whole : (0 : ℚ) < m := by exact_mod_cast before
    apply reached [(m : ℚ), fill] (by simp [positive, before]) (by simpa using within)
    have first : nearestEven (m : ℚ) = m := by exact_mod_cast nearestEven_intCast (K := ℚ) m
    simp [emits, carry, first, rounded, spansFrom, some'.ne', before.ne']

/-- Whatever a fill is hedged with, after others, is made of ounces or ends in a tie. -/
theorem PartsAdmitted.admits {tickets : List ℚ} (parts : PartsAdmitted rule tickets quantity)
    (largest : ∀ largest : ℤ, nearestEven quantity = largest → 0 < largest →
      ∀ x ∈ cut 0 (largest : ℚ) tickets, rule.Admits x)
    {gone n : ℕ} {arrived : ℚ} (most : arrived ≤ quantity)
    (rounded : (n : ℤ) = nearestEven (arrived - gone)) (some' : 0 < n) :
    ∀ x ∈ cut (gone : ℚ) (gone + n) tickets, rule.Admits x := by
  have near := (abs_le.1 (abs_sub_nearestEven_le (arrived - gone))).1
  rw [← rounded, Int.cast_natCast] at near
  have low : (gone : ℚ) + n - 1 / 2 ≤ quantity := by linarith
  rcases low.eq_or_lt with tie | beyond
  · have exact' : arrived - gone = ((n : ℤ) : ℚ) - 1 / 2 := by
      push_cast
      linarith
    rw [exact'] at rounded
    have even := (nearestEven_sub_half _).1 rounded.symm
    exact parts.ties gone n some' (by exact_mod_cast even) tie.symm
  · intro x member
    have units : ∀ m < gone + n, ∀ y ∈ cut (m : ℚ) (m + 1) tickets, rule.Steps y := by
      intro m before y there
      have le : (m : ℚ) + 1 ≤ gone + n := by exact_mod_cast before
      exact (LotRule.admits_iff.1 (parts.ounces m (by linarith) y there)).1
    have steps : rule.Steps x := by
      apply cut_units (fun _ _ => LotRule.Steps.add) units gone n le_rfl some'
      push_cast
      exact member
    have bound : ((gone + n : ℕ) : ℤ) ≤ nearestEven quantity :=
      le_nearestEven_of_lt (by push_cast; linarith)
    have bound' : (gone : ℚ) + n ≤ nearestEven quantity := by exact_mod_cast bound
    obtain ⟨y, there, le⟩ := cut_le (Nat.cast_nonneg gone) bound' member
    exact steps.admits le (largest _ rfl (by omega) y there)

/-- The fills' hedges are admitted exactly when the parts are. -/
theorem strict_preflight_complete_iff (rule : LotRule) (exit : Taker.Exit)
    (positions : List Position) (direction : SourceDirection) (quantity : ℚ)
    (accepted : Executable rule exit positions direction quantity) :
    FillsAdmitted rule positions direction quantity ↔
      PartsAdmitted rule (direction.tickets positions) quantity := by
  constructor
  · intro all
    have tickets {m n : ℕ} {fill : ℚ} (within : m + fill ≤ quantity)
        (rounded : nearestEven fill = n) (some' : 0 < n) : Tickets positions := by
      have more : nearestEven fill ≤ nearestEven quantity :=
        nearestEven_mono (by linarith [(Nat.cast_nonneg m : (0 : ℚ) ≤ m)])
      exact (accepted.largest rfl (by omega)).1
    constructor
    · intro m before
      have one : nearestEven (min 1 (quantity - m)) = ((1 : ℕ) : ℤ) := by
        apply nearestEven_eq_of_close
        have low : 1 / 2 < min 1 (quantity - m) := lt_min (by norm_num) (by linarith)
        have high : min 1 (quantity - m) ≤ 1 := min_le_left _ _
        rw [abs_lt]
        push_cast
        constructor <;> linarith
      have within : m + min 1 (quantity - m) ≤ quantity := by
        linarith [min_le_right 1 (quantity - m)]
      have part := all.part (tickets within one Nat.one_pos)
        (lt_min one_pos (by linarith)) within one Nat.one_pos
      rwa [Nat.cast_one] at part
    · intro m n some' even last
      have rounded : nearestEven ((n : ℚ) - 1 / 2) = n := by
        have tie := (nearestEven_sub_half (K := ℚ) (n : ℤ)).2 (by exact_mod_cast even)
        exact_mod_cast tie
      have within : m + ((n : ℚ) - 1 / 2) ≤ quantity := by linarith
      have least : (1 : ℚ) ≤ n := by exact_mod_cast some'
      exact all.part (tickets within rounded some') (by linarith) within rounded some'
  · intro parts fills signs sum plans run plan planned leg part
    have tickets : Tickets positions := by
      obtain ⟨after, whole⟩ := run
      exact whole.start (List.ne_nil_of_mem planned)
    have nonneg : ∀ fill ∈ fills, 0 ≤ fill := fun fill member => (signs fill member).le
    have member : plan.map (·.quantityOunces) ∈
        spansFrom (direction.tickets positions) 0 (emits 0 fills) := by
      rw [← run.taken tickets nonneg]
      exact List.mem_map_of_mem planned
    obtain ⟨k, n, there, positive, span⟩ := mem_spansFrom (emits_nonneg (by norm_num) nonneg) member
    obtain ⟨gone, before, arrived, most, rounded⟩ := emitted_from nonneg there
    obtain ⟨n, rfl⟩ := Int.eq_ofNat_of_zero_le positive.le
    rw [before, zero_add, Int.cast_natCast, Int.cast_natCast] at span
    have admitted := parts.admits (fun _ here some' => (accepted.largest here some').2)
      (most.trans sum) rounded (by omega)
    rw [← span] at admitted
    exact admitted _ (List.mem_map_of_mem part)

/-- A venue that takes two ounces and then single ones: the largest hedge of two passes, while
two fills of one ounce need two hedges of one. -/
theorem strict_preflight_misses_parts :
    Executable ⟨100, 1 / 50, 50, 1 / 100⟩ ⟨false, none, none⟩ [] .long 2 ∧
      ¬FillsAdmitted ⟨100, 1 / 50, 50, 1 / 100⟩ [] .long 2 := by
  refine ⟨.inl (by decide +kernel), fun all => ?_⟩
  have none : Tickets [] := ⟨by simp, by simp, by simp, by simp⟩
  have one : nearestEven (1 : ℚ) = ((1 : ℕ) : ℤ) := by simpa using nearestEven_intCast (K := ℚ) 1
  have first : (1 : ℚ) ∈ cut ((0 : ℕ) : ℚ) ((0 : ℕ) + (1 : ℕ))
      (SourceDirection.long.tickets []) := by
    decide +kernel
  have admitted := all.part none one_pos (by norm_num) one Nat.one_pos 1 first
  exact absurd admitted (by decide +kernel)

/-- Two and a half ounces over a ticket of one. -/
theorem strict_preflight_complete_tie :
    FillsAdmitted ⟨100, 1 / 100, 50, 1 / 100⟩ [⟨"7", true, false, 1⟩] .long (5 / 2) := by
  apply (strict_preflight_complete_iff ⟨100, 1 / 100, 50, 1 / 100⟩ ⟨false, none, none⟩
    [⟨"7", true, false, 1⟩] .long (5 / 2) (.inl (by decide +kernel))).2
  constructor
  · intro m before
    have few : m < 2 := by
      have : (m : ℚ) < (2 : ℕ) := by push_cast; linarith
      exact_mod_cast this
    obtain rfl | rfl : m = 0 ∨ m = 1 := by omega
    · decide +kernel
    · decide +kernel
  · intro m n some' even last
    have three : m + n = 3 := by
      have : ((m + n : ℕ) : ℚ) = (3 : ℕ) := by push_cast; linarith
      exact_mod_cast this
    obtain rfl : n = 2 := by grind
    obtain rfl : m = 1 := by omega
    decide +kernel

end Complete

end ArbNautilus.Store
