import Mathlib.Data.List.Basic
import Mathlib.Data.Rat.Defs
import Mathlib.Tactic.Common

namespace ArbNautilus.Bitfinex.MarginPositions

section Source

/-- A position row; its amounts compare by value. -/
structure PositionState where
  symbol : String
  status : String
  quantity : ℚ
  basePrice : Option ℚ
  marginFunding : Option ℚ
  marginFundingType : Option ℤ
  profitLoss : Option ℚ
  profitLossPct : Option ℚ
  liquidationPrice : Option ℚ
  leverage : Option ℚ
  positionId : Option ℤ
  tsCreatedMs : Option ℤ := none
  tsUpdatedMs : Option ℤ := none
  positionType : Option ℤ := none
  collateral : Option ℚ := none
  collateralMin : Option ℚ := none
deriving DecidableEq

/-- A snapshot, and a position that is new, updated or closed. -/
inductive MessageType
  | ps
  | pn
  | pu
  | pc
deriving DecidableEq

structure PositionEvent where
  messageType : MessageType
  positions : List PositionState

/-- The client's facts about the margin position. -/
structure Margin where
  position : Option PositionState := none
  last : Option PositionState := none
  observedNs : Option ℤ := none
  complete : Bool := false
  current : Bool := false
  revision : ℕ := 0

namespace Margin

def invalidateMarginFacts (m : Margin) (connectionChanged : Bool) : Margin :=
  { m with
    revision := m.revision + 1
    current := false
    -- A delta on the next stream cannot repair a missed snapshot.
    complete := if connectionChanged then false else m.complete }

/-- The update timestamp of a row against that of the last. -/
def timestampValid (row : PositionState) (last : Option PositionState) : Bool :=
  match last with
  | none => true
  | some previous => match previous.tsUpdatedMs, row.tsUpdatedMs with
    | none, _ => true
    | some _, none => false
    | some earlier, some updated =>
      decide (earlier ≤ updated ∧ (updated = earlier → row = previous))

/-- `_margin_position_transition_valid`. -/
def transitionValid (m : Margin) (row : PositionState) (messageType : MessageType) : Bool :=
  if row.positionId.any (0 < ·) = false then false
  else if timestampValid row m.last = false then false
  else if messageType = .pc then match m.last with
    | none => false
    | some previous => decide (row.status = "CLOSED" ∧ row.quantity = 0 ∧
      row.positionId = previous.positionId ∧ (m.position ≠ none ∨ row = previous))
  else if row.status ≠ "ACTIVE" ∨ row.quantity = 0 then false
  else match messageType, m.position with
    | .pu, none => false
    | .pu, some shown => decide (row.positionId = shown.positionId)
    | .pn, some shown => decide (row = shown)
    | _, some _ => true
    -- A known closed ID cannot be resurrected by an old delta or snapshot.
    | _, none => match m.last with
      | none => true
      | some previous => decide (row.positionId ≠ previous.positionId)

/-- Whether an event may be installed, and its target row. -/
def positionCandidate (m : Margin) (rawSymbol : String) (event : PositionEvent) :
    Bool × Option PositionState :=
  if event.messageType = .ps ∨ m.complete then
    match event.positions.filter (·.symbol = rawSymbol) with
    | [] => (decide (event.messageType = .ps), none)
    | [row] => if m.transitionValid row event.messageType then (true, some row) else (false, none)
    | _ => (false, none)
  else (false, none)

def installPosition (m : Margin) (row : Option PositionState) (observedNs : ℤ) : Margin :=
  { m with
    position := row.filter (·.status = "ACTIVE")
    last := row.orElse fun _ => m.last
    complete := true
    current := true
    observedNs := some observedNs }

/-- `_reject_margin_positions`. -/
def rejectPositions (m : Margin) : Margin :=
  { m with revision := m.revision + 1, complete := false, current := false }

/-- `_handle_margin_positions`; a delta without a target row is none of its business. -/
def handlePositions (m : Margin) (rawSymbol : String) (event : PositionEvent) (nowNs : ℤ) :
    Margin :=
  if event.messageType ≠ .ps ∧ ∀ row ∈ event.positions, row.symbol ≠ rawSymbol then m
  else
    let (valid, row) := m.positionCandidate rawSymbol event
    if valid then installPosition m.rejectPositions row nowNs else m.rejectPositions

end Margin

/-- A sample of the position rows, nothing where it could not be read. -/
abbrev Sample := Option (List PositionState)

namespace Margin

/-- The installation of an account query's sample, as long as nothing came between. -/
def querySample (m : Margin) (rawSymbol : String) (asOf : ℕ) (sample : Sample) (observedNs : ℤ) :
    Margin :=
  if asOf ≠ m.revision then m
  else match sample with
    | none => m.rejectPositions
    | some rows =>
      let (valid, row) := m.positionCandidate rawSymbol ⟨.ps, rows⟩
      if valid then installPosition { m with revision := m.revision + 1 } row observedNs
      else m.rejectPositions

/-- The same of a position report. -/
def reportSample (m : Margin) (rawSymbol : String) (asOf : ℕ) (sample : Sample) (nowNs : ℤ) :
    Margin :=
  if asOf ≠ m.revision then m
  else match sample with
    | none => m.rejectPositions
    | some rows => m.handlePositions rawSymbol ⟨.ps, rows⟩ nowNs

end Margin

end Source

section Steps

/-- What reaches the margin position: a stream event, a change of the facts behind it, and the
samples of a report and of an account query, each with the revision it was asked at. -/
inductive Input
  | event (event : PositionEvent) (nowNs : ℤ)
  | invalidate (connectionChanged : Bool)
  | report (asOf : ℕ) (sample : Sample) (nowNs : ℤ)
  | query (asOf : ℕ) (sample : Sample) (observedNs : ℤ)

def Input.rows : Input → List PositionState
  | .event received _ => received.positions
  | .invalidate _ => []
  | .report _ sample _ | .query _ sample _ => sample.getD []

/-- What an input comes to. -/
inductive Outcome
  | ignored
  | invalidated
  | rejected
  | installed (full : Bool) (row : Option PositionState)
deriving DecidableEq

variable (rawSymbol : String)

def Margin.judge (m : Margin) (event : PositionEvent) : Outcome :=
  let (valid, row) := m.positionCandidate rawSymbol event
  if valid then .installed (decide (event.messageType = .ps)) row else .rejected

def Margin.outcome (m : Margin) : Input → Outcome
  | .event event _ =>
    if event.messageType ≠ .ps ∧ ∀ row ∈ event.positions, row.symbol ≠ rawSymbol then .ignored
    else m.judge rawSymbol event
  | .invalidate _ => .invalidated
  | .report asOf sample _ | .query asOf sample _ =>
    if asOf ≠ m.revision then .ignored
    else match sample with
      | none => .rejected
      | some rows => m.judge rawSymbol ⟨.ps, rows⟩

def Margin.step (m : Margin) : Input → Margin
  | .event event nowNs => m.handlePositions rawSymbol event nowNs
  | .invalidate connectionChanged => m.invalidateMarginFacts connectionChanged
  | .report asOf sample nowNs => m.reportSample rawSymbol asOf sample nowNs
  | .query asOf sample observedNs => m.querySample rawSymbol asOf sample observedNs

variable {rawSymbol} {m m' : Margin}

/-- A row that was installed over what was held before. -/
structure Follows (rawSymbol : String) (m : Margin) (rows : List PositionState)
    (row : PositionState) : Prop where
  listed : row ∈ rows
  target : row.symbol = rawSymbol
  stamped : Margin.timestampValid row m.last = true
  /-- An active position is never shown over the closed row of its own identity. -/
  reopened : row.status = "ACTIVE" → m.position = none →
    ∀ previous, m.last = some previous → row.positionId ≠ previous.positionId

/-- What each outcome leaves of the facts. -/
def Leaves (rawSymbol : String) (m : Margin) (rows : List PositionState) (m' : Margin) :
    Outcome → Prop
  | .ignored => m' = m
  | .invalidated => m'.position = m.position ∧ m'.last = m.last ∧ m'.current = false ∧
    (m'.complete = true → m.complete = true)
  | .rejected => m'.position = m.position ∧ m'.last = m.last ∧ m'.current = false ∧
    m'.complete = false
  | .installed full row => m'.position = row.filter (·.status = "ACTIVE") ∧
    m'.last = row.orElse (fun _ => m.last) ∧ m'.current = true ∧ m'.complete = true ∧
    (full = true ∨ m.complete = true) ∧ ∀ installed, row = some installed →
      Follows rawSymbol m rows installed

theorem transitionValid_follows {row : PositionState} {messageType : MessageType}
    {rows : List PositionState} (h : m.transitionValid row messageType = true) (listed : row ∈ rows)
    (target : row.symbol = rawSymbol) : Follows rawSymbol m rows row := by
  unfold Margin.transitionValid at h
  split at h
  · cases h
  · split at h
    · cases h
    · rename_i _ stamped
      refine ⟨listed, target, by simpa using stamped, fun active absent previous last => ?_⟩
      rw [last, absent] at h
      split at h
      · have closed := of_decide_eq_true h
        rw [active] at closed
        exact absurd closed.1 (by decide)
      · split at h
        · cases h
        · cases messageType <;> simp at h <;> exact h

theorem positionCandidate_valid {event : PositionEvent} {row : Option PositionState}
    (h : m.positionCandidate rawSymbol event = (true, row)) :
    (event.messageType = .ps ∨ m.complete = true) ∧ ∀ installed, row = some installed →
      Follows rawSymbol m event.positions installed := by
  unfold Margin.positionCandidate at h
  split at h
  · rename_i sampled
    refine ⟨sampled, fun installed held => ?_⟩
    split at h
    · obtain ⟨-, rfl⟩ := Prod.mk.inj h
      cases held
    · rename_i only rows
      have listed : only ∈ event.positions.filter (·.symbol = rawSymbol) := by simp [rows]
      rw [List.mem_filter, decide_eq_true_eq] at listed
      split at h
      · rename_i valid
        cases h
        cases held
        exact transitionValid_follows valid listed.1 listed.2
      · cases h
    · cases h
  · cases h

theorem judge_leaves (m : Margin) (event : PositionEvent) (base : Margin)
    (same : base.last = m.last) (nowNs : ℤ) :
    Leaves rawSymbol m event.positions
      (if (m.positionCandidate rawSymbol event).1 then
        base.installPosition (m.positionCandidate rawSymbol event).2 nowNs
      else m.rejectPositions) (m.judge rawSymbol event) := by
  unfold Margin.judge
  cases judged : m.positionCandidate rawSymbol event with
  | mk valid row =>
    cases valid with
    | false => exact ⟨rfl, rfl, rfl, rfl⟩
    | true =>
      obtain ⟨sampled, follows⟩ := positionCandidate_valid judged
      refine ⟨rfl, ?_, rfl, rfl, sampled.imp_left decide_eq_true, follows⟩
      show row.orElse (fun _ => base.last) = _
      rw [same]

theorem handlePositions_leaves (event : PositionEvent) (nowNs : ℤ)
    (own : ¬(event.messageType ≠ .ps ∧ ∀ row ∈ event.positions, row.symbol ≠ rawSymbol)) :
    Leaves rawSymbol m event.positions (m.handlePositions rawSymbol event nowNs)
      (m.judge rawSymbol event) := by
  unfold Margin.handlePositions
  rw [if_neg own]
  exact judge_leaves m event m.rejectPositions rfl nowNs

theorem step_leaves (m : Margin) (input : Input) :
    Leaves rawSymbol m input.rows (m.step rawSymbol input) (m.outcome rawSymbol input) := by
  cases input with
  | event received nowNs =>
    by_cases foreign : received.messageType ≠ .ps ∧
      ∀ row ∈ received.positions, row.symbol ≠ rawSymbol
    · simp only [Margin.outcome, Margin.step, Margin.handlePositions, if_pos foreign]
      rfl
    · simp only [Margin.outcome, if_neg foreign]
      exact handlePositions_leaves received nowNs foreign
  | invalidate connectionChanged =>
    refine ⟨rfl, rfl, rfl, fun complete => ?_⟩
    cases connectionChanged with
    | false => exact complete
    | true => cases complete
  | report asOf sample nowNs =>
    by_cases stale : asOf ≠ m.revision
    · simp only [Margin.outcome, Margin.step, Margin.reportSample, if_pos stale]
      rfl
    · simp only [Margin.outcome, Margin.step, Margin.reportSample, if_neg stale]
      cases sample with
      | none => exact ⟨rfl, rfl, rfl, rfl⟩
      | some rows => exact handlePositions_leaves ⟨.ps, rows⟩ nowNs fun delta => delta.1 rfl
  | query asOf sample observedNs =>
    by_cases stale : asOf ≠ m.revision
    · simp only [Margin.outcome, Margin.step, Margin.querySample, if_pos stale]
      rfl
    · simp only [Margin.outcome, Margin.step, Margin.querySample, if_neg stale]
      cases sample with
      | none => exact ⟨rfl, rfl, rfl, rfl⟩
      | some rows =>
        exact judge_leaves m ⟨.ps, rows⟩ { m with revision := m.revision + 1 } rfl observedNs

end Steps

section Runs

variable (rawSymbol : String)

/-- The facts, and the rows installed so far. -/
structure Trace where
  margin : Margin
  rows : List PositionState

def Outcome.row : Outcome → Option PositionState
  | .installed _ row => row
  | _ => none

def Trace.step (t : Trace) (input : Input) : Trace where
  margin := t.margin.step rawSymbol input
  rows := t.rows ++ (t.margin.outcome rawSymbol input).row.toList

def Trace.run (t : Trace) (inputs : List Input) : Trace := inputs.foldl (Trace.step rawSymbol) t

def Trace.start : Trace := ⟨{}, []⟩

/-- An earlier row against a later one: no older, and the same if it is as old. -/
def NoLater (earlier later : PositionState) : Prop :=
  ∃ before after, earlier.tsUpdatedMs = some before ∧ later.tsUpdatedMs = some after ∧
    before ≤ after ∧ (before = after → earlier = later)

/-- What holds of the facts after these rows were installed. -/
structure Good (rows : List PositionState) (m : Margin) : Prop where
  current : m.current = true → m.complete = true
  last : m.last = rows.getLast?
  shown : ∀ row, m.position = some row → rows.getLast? = some row ∧ row.status = "ACTIVE"
  stamped : ∀ row ∈ rows, row.tsUpdatedMs ≠ none
  ordered : rows.Pairwise NoLater
  /-- A closed row that only rows of its own identity followed leaves nothing shown. -/
  closed : ∀ earlier row later, rows = earlier ++ row :: later → row.status = "CLOSED" →
    (∀ other ∈ later, other.positionId = row.positionId) → m.position = none

theorem good_start : Good Trace.start.rows Trace.start.margin where
  current h := Bool.noConfusion h
  last := rfl
  shown row h := absurd h.symm (Option.some_ne_none row)
  stamped _ listed := absurd listed (List.not_mem_nil)
  ordered := .nil
  closed _ _ _ _ _ _ := rfl

theorem NoLater.trans {a b c : PositionState} (first : NoLater a b) (second : NoLater b c) :
    NoLater a c := by
  obtain ⟨s, t, hs, ht, le, same⟩ := first
  obtain ⟨t', u, ht', hu, le', same'⟩ := second
  have middle : t = t' := Option.some.inj (ht.symm.trans ht')
  have first : s = u → s = t := fun eq => by omega
  have later : s = u → t' = u := fun eq => by omega
  exact ⟨s, u, hs, hu, by omega, fun eq => (same (first eq)).trans (same' (later eq))⟩

variable {rawSymbol} {rows sampled : List PositionState} {row : PositionState} {m m' : Margin}

theorem Good.kept (good : Good rows m) (position : m'.position = m.position)
    (last : m'.last = m.last) (current : m'.current = true → m'.complete = true) :
    Good rows m' where
  current := current
  last := last.trans good.last
  shown := by rw [position]; exact good.shown
  stamped := good.stamped
  ordered := good.ordered
  closed := by rw [position]; exact good.closed

theorem Good.emptied (good : Good rows m) (position : m'.position = none)
    (last : m'.last = m.last) (complete : m'.complete = true) : Good rows m' where
  current _ := complete
  last := last.trans good.last
  shown row shown := absurd (shown.symm.trans position) (Option.some_ne_none row)
  stamped := good.stamped
  ordered := good.ordered
  closed _ _ _ _ _ _ := position

/-- The row that is installed is no older than any before. -/
theorem Good.noLater (good : Good rows m) (follows : Follows rawSymbol m sampled row)
    (stamp : row.tsUpdatedMs ≠ none) : ∀ earlier ∈ rows, NoLater earlier row := by
  intro earlier listed
  obtain ⟨before, previous, split⟩ : ∃ before previous, rows = before ++ [previous] :=
    (List.eq_nil_or_concat' rows).resolve_left (List.ne_nil_of_mem listed)
  have held : m.last = some previous := by rw [good.last, split, List.getLast?_concat]
  have adjacent : NoLater previous row := by
    have valid := follows.stamped
    rw [held] at valid
    obtain ⟨after, stampedRow⟩ := Option.ne_none_iff_exists'.1 stamp
    obtain ⟨stamped, stampedPrevious⟩ := Option.ne_none_iff_exists'.1
      (good.stamped previous (by simp [split]))
    simp only [Margin.timestampValid, stampedRow, stampedPrevious, decide_eq_true_eq] at valid
    exact ⟨stamped, after, stampedPrevious, stampedRow, valid.1,
      fun eq => (valid.2 eq.symm).symm⟩
  rw [split] at listed
  obtain old | last := List.mem_append.1 listed
  · have ordered := good.ordered
    rw [split, List.pairwise_append] at ordered
    exact (ordered.2.2 earlier old previous (by simp)).trans adjacent
  · rw [List.mem_singleton.1 last]
    exact adjacent

/-- An active row is not installed behind the closed row of its own identity. -/
theorem Good.reopens (good : Good rows m) (follows : Follows rawSymbol m sampled row)
    (active : row.status = "ACTIVE") {earlier later : List PositionState} {closed : PositionState}
    (split : rows = earlier ++ closed :: later) (status : closed.status = "CLOSED")
    (same : ∀ other ∈ later, other.positionId = closed.positionId) :
    row.positionId ≠ closed.positionId := by
  have absent := good.closed earlier closed later split status same
  obtain rfl | ⟨between, previous, rfl⟩ := List.eq_nil_or_concat' later
  · exact follows.reopened active absent closed (by rw [good.last, split, List.getLast?_concat])
  · have held : m.last = some previous := by
      rw [good.last, split, ← List.cons_append, ← List.append_assoc, List.getLast?_concat]
    rw [← same previous (by simp)]
    exact follows.reopened active absent previous held

theorem Good.installs (good : Good rows m) (follows : Follows rawSymbol m sampled row)
    (stamp : row.tsUpdatedMs ≠ none)
    (position : m'.position = (some row).filter (·.status = "ACTIVE"))
    (last : m'.last = some row) (complete : m'.complete = true) : Good (rows ++ [row]) m' where
  current _ := complete
  last := by rw [last, List.getLast?_concat]
  shown shown held := by
    rw [position, Option.filter_eq_some_iff, decide_eq_true_eq] at held
    rw [List.getLast?_concat]
    exact held
  stamped other listed := by
    obtain old | new := List.mem_append.1 listed
    · exact good.stamped other old
    · rw [List.mem_singleton.1 new]
      exact stamp
  ordered := List.pairwise_append.2 ⟨good.ordered, List.pairwise_singleton _ row, by
    intro earlier listed later single
    rw [List.mem_singleton.1 single]
    exact good.noLater follows stamp earlier listed⟩
  closed earlier closed later split status same := by
    rw [position, Option.filter_eq_none_iff]
    intro shown held
    obtain rfl := Option.some.inj held
    rw [decide_eq_true_eq]
    intro active
    obtain rfl | ⟨between, newest, rfl⟩ := List.eq_nil_or_concat' later
    · obtain ⟨-, only⟩ := List.append_inj' split rfl
      obtain rfl := List.singleton_inj.1 only
      exact absurd (active.symm.trans status) (by decide)
    · rw [← List.cons_append, ← List.append_assoc] at split
      obtain ⟨front, only⟩ := List.append_inj' split rfl
      obtain rfl := List.singleton_inj.1 only
      exact good.reopens follows active front status
        (fun other since => same other (List.mem_append_left _ since)) (same row (by simp))

theorem Good.leaves {outcome : Outcome} (good : Good rows m)
    (leaves : Leaves rawSymbol m sampled m' outcome)
    (stamped : ∀ row ∈ sampled, row.symbol = rawSymbol → row.tsUpdatedMs ≠ none) :
    Good (rows ++ outcome.row.toList) m' := by
  cases outcome with
  | ignored =>
    obtain rfl : m' = m := leaves
    show Good (rows ++ []) m'
    rwa [List.append_nil]
  | invalidated =>
    obtain ⟨position, last, current, -⟩ := leaves
    show Good (rows ++ []) m'
    rw [List.append_nil]
    exact good.kept position last fun shown => absurd (shown.symm.trans current) (by decide)
  | rejected =>
    obtain ⟨position, last, current, -⟩ := leaves
    show Good (rows ++ []) m'
    rw [List.append_nil]
    exact good.kept position last fun shown => absurd (shown.symm.trans current) (by decide)
  | installed full row =>
    obtain ⟨position, last, -, complete, -, follows⟩ := leaves
    cases row with
    | none =>
      show Good (rows ++ []) m'
      rw [List.append_nil]
      exact good.emptied position last complete
    | some row =>
      have followed := follows row rfl
      exact good.installs followed (stamped row followed.listed followed.target) position last
        complete

theorem good_step {t : Trace} {input : Input} (good : Good t.rows t.margin)
    (stamped : ∀ row ∈ input.rows, row.symbol = rawSymbol → row.tsUpdatedMs ≠ none) :
    Good (t.step rawSymbol input).rows (t.step rawSymbol input).margin :=
  good.leaves (step_leaves t.margin input) stamped

theorem good_run {inputs : List Input}
    (stamped : ∀ input ∈ inputs, ∀ row ∈ input.rows, row.symbol = rawSymbol →
      row.tsUpdatedMs ≠ none) :
    ∀ {t : Trace}, Good t.rows t.margin →
      Good (t.run rawSymbol inputs).rows (t.run rawSymbol inputs).margin := by
  induction inputs with
  | nil => exact fun good => good
  | cons input rest ih =>
    intro t good
    exact ih (fun other later => stamped other (List.mem_cons_of_mem input later))
      (good_step good (stamped input List.mem_cons_self))

/-- Facts that are incomplete are made complete by a full sample only. -/
theorem run_completes {inputs : List Input} : ∀ {t : Trace}, t.margin.complete = false →
    (t.run rawSymbol inputs).margin.complete = true →
    ∃ before sample after row, inputs = before ++ sample :: after ∧
      (t.run rawSymbol before).margin.outcome rawSymbol sample = .installed true row := by
  induction inputs with
  | nil =>
    intro t incomplete complete
    exact absurd (complete.symm.trans incomplete) (by decide)
  | cons input rest ih =>
    intro t incomplete complete
    have leaves : Leaves rawSymbol t.margin input.rows _ _ := step_leaves t.margin input
    by_cases full : ∃ row, t.margin.outcome rawSymbol input = .installed true row
    · obtain ⟨row, full⟩ := full
      exact ⟨[], input, rest, row, rfl, full⟩
    · have still : (t.step rawSymbol input).margin.complete = false := by
        cases came : t.margin.outcome rawSymbol input with
        | ignored =>
          rw [came] at leaves
          exact (congrArg Margin.complete leaves).trans incomplete
        | invalidated =>
          rw [came] at leaves
          exact eq_false_of_ne_true fun now =>
            absurd (incomplete.symm.trans (leaves.2.2.2 now)) (by decide)
        | rejected =>
          rw [came] at leaves
          exact leaves.2.2.2
        | installed whole row =>
          rw [came] at leaves
          obtain rfl | already := leaves.2.2.2.2.1
          · exact absurd ⟨row, came⟩ full
          · exact absurd (incomplete.symm.trans already) (by decide)
      obtain ⟨before, sample, after, row, split, full⟩ := ih still complete
      exact ⟨input :: before, sample, after, row, by rw [split, List.cons_append], full⟩

theorem Good.reopened (good : Good rows m) {shown closed : PositionState}
    {earlier later : List PositionState} (position : m.position = some shown)
    (split : rows = earlier ++ closed :: later) (status : closed.status = "CLOSED") :
    (∃ other ∈ later, other.positionId ≠ closed.positionId) ∧
      ∃ before after, closed.tsUpdatedMs = some before ∧ shown.tsUpdatedMs = some after ∧
        before < after := by
  obtain ⟨newest, active⟩ := good.shown shown position
  have other : ∃ other ∈ later, other.positionId ≠ closed.positionId := by
    by_contra same
    push Not at same
    have absent := good.closed earlier closed later split status same
    exact Option.some_ne_none shown (position.symm.trans absent)
  refine ⟨other, ?_⟩
  obtain ⟨since, listed, -⟩ := other
  have ordered := good.ordered
  rw [split, List.pairwise_append, List.pairwise_cons] at ordered
  have last : shown ∈ later := by
    rw [split, List.getLast?_append_of_ne_nil _ (List.cons_ne_nil _ _),
      List.getLast?_cons_of_ne_nil (List.ne_nil_of_mem listed)] at newest
    exact List.mem_of_getLast? newest
  obtain ⟨before, after, closedAt, shownAt, le, same⟩ := ordered.2.1.1 shown last
  have apart : before ≠ after := by
    intro eq
    rw [same eq, active] at status
    exact absurd status (by decide)
  exact ⟨before, after, closedAt, shownAt, by omega⟩

variable (rawSymbol)

/-- What holds of the stream of margin positions after any inputs. -/
structure Streamed (inputs : List Input) (t : Trace) : Prop where
  current : t.margin.current = true → t.margin.complete = true
  ordered : t.rows.Pairwise NoLater
  rejected : ∀ before input after, inputs = before ++ input :: after →
    (Trace.start.run rawSymbol before).margin.outcome rawSymbol input = .rejected →
    t.margin.complete = true →
    ∃ between sample since row, after = between ++ sample :: since ∧
      (Trace.start.run rawSymbol (before ++ input :: between)).margin.outcome rawSymbol sample =
        .installed true row
  /-- Only a later row behind one of another identity shows a closed identity again. -/
  reopened : ∀ shown closed earlier later, t.margin.position = some shown →
    t.rows = earlier ++ closed :: later → closed.status = "CLOSED" →
    shown.positionId = closed.positionId →
    (∃ other ∈ later, other.positionId ≠ closed.positionId) ∧
      ∃ before after, closed.tsUpdatedMs = some before ∧ shown.tsUpdatedMs = some after ∧
        before < after

/-- Whatever comes in, the installed rows never go back in time, a rejected input is made good only
by a whole sample that is installed after it, and an identity that was closed is shown again only by
a later row behind another identity's. -/
theorem margin_stream (inputs : List Input)
    (stamped : ∀ input ∈ inputs, ∀ row ∈ input.rows, row.symbol = rawSymbol →
      row.tsUpdatedMs ≠ none) :
    Streamed rawSymbol inputs (Trace.start.run rawSymbol inputs) := by
  have good : Good _ _ := good_run stamped good_start
  refine ⟨good.current, good.ordered, ?_, ?_⟩
  · intro before input after split came complete
    have step : ∀ rest, Trace.start.run rawSymbol (before ++ input :: rest) =
        ((Trace.start.run rawSymbol before).step rawSymbol input).run rawSymbol rest :=
      fun rest => by simp only [Trace.run, List.foldl_append, List.foldl_cons]
    have leaves : Leaves rawSymbol _ input.rows _ _ :=
      step_leaves (Trace.start.run rawSymbol before).margin input
    rw [came] at leaves
    rw [split, step] at complete
    obtain ⟨between, sample, since, row, parts, full⟩ := run_completes leaves.2.2.2 complete
    exact ⟨between, sample, since, row, parts, by rw [step]; exact full⟩
  · intro shown closed earlier later position split status _
    exact good.reopened position split status

/-- The position `44` is opened, closed, replaced by `45`, and sampled again. -/
def reopening : List Input :=
  let row (positionId : ℤ) (status : String) (quantity : ℚ) (ms : ℤ) : PositionState :=
    ⟨"tXAUT:USD", status, quantity, none, none, none, none, none, none, none, some positionId, none,
      some ms, none, none, none⟩
  [.event ⟨.ps, [row 44 "ACTIVE" 1 100]⟩ 0,
    .event ⟨.pc, [row 44 "CLOSED" 0 101]⟩ 0,
    .event ⟨.pn, [row 45 "ACTIVE" 1 102]⟩ 0,
    .event ⟨.ps, [row 44 "ACTIVE" 1 103]⟩ 0]

theorem margin_stream_reopening :
    Streamed "tXAUT:USD" reopening (Trace.start.run "tXAUT:USD" reopening) :=
  margin_stream "tXAUT:USD" reopening (by decide +kernel)

/-- The identity of an installed closed row is shown as the active position. -/
theorem closed_identity_reopens :
    (∀ input ∈ reopening, ∀ row ∈ input.rows, row.symbol = "tXAUT:USD" →
      row.tsUpdatedMs ≠ none) ∧
    (∃ row ∈ (Trace.start.run "tXAUT:USD" reopening).rows,
      row.status = "CLOSED" ∧ row.positionId = some 44) ∧
    ((Trace.start.run "tXAUT:USD" reopening).margin.position.bind (·.positionId)) = some 44 := by
  decide +kernel

end Runs

end ArbNautilus.Bitfinex.MarginPositions
