import ArbNautilus.Base.Once
import ArbNautilus.Store.LateFill

namespace ArbNautilus.Store

open Base

namespace StoreState

/-- The delivery is a fill of one of the store's source orders. -/
def OwnsSource (s : StoreState) (fill : SourceFill) : Prop :=
  0 < fill.fillOunces ∧
    ∃ record ∈ s.sourceOrders.get? fill.clientOrderId, record.side = fill.sourceSide

/-- The delivery is a fill of an order some intent's history names. -/
def OwnsHedge (s : StoreState) (fill : HedgeFill) : Prop :=
  0 < fill.fillOunces ∧
    ∃ intent ∈ s.hedgeIntents.values, fill.clientOrderId ∈ intent.hedgeOrderIds

/-- The lookup no longer finds an order the history still names. -/
def Drops (s : StoreState) (fill : HedgeFill) : Prop :=
  s.OwnsHedge fill ∧ fill.fillKey ∉ s.seenHedgeFills ∧
    s.intentForHedgeOrder fill.clientOrderId = none

instance (s : StoreState) (fill : SourceFill) : Decidable (s.OwnsSource fill) :=
  inferInstanceAs (Decidable (_ ∧ _))

instance (s : StoreState) (fill : HedgeFill) : Decidable (s.OwnsHedge fill) :=
  inferInstanceAs (Decidable (_ ∧ _))

instance (s : StoreState) (fill : HedgeFill) : Decidable (s.Drops fill) :=
  inferInstanceAs (Decidable (_ ∧ _))

end StoreState

/-- A store beside every delivery made to it. -/
structure Ledger where
  store : JsonStateStore
  source : List SourceFill
  hedge : List HedgeFill
  dropped : List HedgeFill

namespace Ledger

def empty : Ledger := ⟨.empty, [], [], []⟩

def memory (l : Ledger) : StoreState := l.store.memory

def deliverSource (l : Ledger) : StoreOp → List SourceFill
  | .reserveSourceFill fill =>
    if l.memory.OwnsSource fill then l.source ++ [fill] else l.source
  | _ => l.source

def deliverHedge (l : Ledger) : StoreOp → List HedgeFill
  | .applyHedgeFill fill => if l.memory.OwnsHedge fill then l.hedge ++ [fill] else l.hedge
  | _ => l.hedge

def drop (l : Ledger) : StoreOp → List HedgeFill
  | .applyHedgeFill fill => if l.memory.Drops fill then l.dropped ++ [fill] else l.dropped
  | _ => l.dropped

/-- One call, its publication succeeding. -/
def call (digest : String → String) (l : Ledger) (op : StoreOp) : Ledger where
  store := (l.store.commit .published (op.change digest l.memory)).2
  source := l.deliverSource op
  hedge := l.deliverHedge op
  dropped := l.drop op

/-- The signed source fills recorded. -/
def signedFilled (record : SourceOrderRecord) : ℚ := record.side.sign * record.filledOunces

/-- The signed hedge an intent stands for, SELL positive. -/
def signedQuantity (intent : HedgeIntent) : ℚ :=
  intent.hedgeSide.hedgeSign * intent.hedgeQuantityOunces

def signedHedged (intent : HedgeIntent) : ℚ :=
  intent.hedgeSide.hedgeSign * intent.hedgeFilledOunces

end Ledger

/-- What the factory and the digest promise of a call: source order identities are fresh,
and no two fill keys share a digest. Startup recovery is not among the calls. -/
def StoreOp.Admissible (digest : String → String) (s : StoreState) : StoreOp → Prop
  | .beginSource request => s.sourceOrders.get? request.clientOrderId = none
  | .reserveSourceFill fill => ∀ intent ∈ s.hedgeIntents.values,
      digest intent.fillKey = digest fill.fillKey → intent.fillKey = fill.fillKey
  | .projectSourceFills _ _ | .projectHedgeFills _ _ | .settleCompleted _ _ => False
  | _ => True

instance (digest : String → String) (s : StoreState) (op : StoreOp) :
    Decidable (op.Admissible digest s) := by
  unfold StoreOp.Admissible
  cases op <;> infer_instance

inductive Traded (digest : String → String) : Ledger → Prop where
  | start : Traded digest .empty
  | call {l : Ledger} {op : StoreOp} : Traded digest l → op.Admissible digest l.memory →
      Traded digest (l.call digest op)

/-- Every ounce is accounted for. -/
structure Balanced (l : Ledger) : Prop where
  residual : l.memory.roundingResidual = l.memory.sourceOrders.total Ledger.signedFilled -
    l.memory.hedgeIntents.total Ledger.signedQuantity
  small : |l.memory.roundingResidual| ≤ 1 / 2
  net : l.memory.netUnhedged l.memory.roundingResidual =
    l.memory.sourceOrders.total Ledger.signedFilled -
      l.memory.hedgeIntents.total Ledger.signedHedged

def SourceCounted (l : Ledger) : Prop :=
  ∀ order record, l.memory.sourceOrders.get? order = some record → record.filledOunces =
    countedOnce SourceFill.fillKey SourceFill.fillOunces (·.clientOrderId = order) l.source

def HedgeCounted (l : Ledger) : Prop :=
  ∀ k intent, l.memory.hedgeIntents.get? k = some intent → intent.hedgeFilledOunces =
    countedOnce HedgeFill.fillKey HedgeFill.fillOunces (·.clientOrderId ∈ intent.hedgeOrderIds)
      l.hedge

/-- The facts of a record that no status change touches. -/
def SourceOrderRecord.facts (record : SourceOrderRecord) : SourceOrderRecord :=
  { record with status := "" }

/-- The facts of an intent that planning and statuses leave alone. -/
def IntentFields.facts (intent : IntentFields) : IntentFields :=
  { intent with
    status := .pending
    hedgeClientOrderId := none
    hedgePlan := []
    hedgeLegIndex := 0
    hedgeLegFilledOunces := 0 }

def intentFacts (intent : HedgeIntent) : IntentFields := intent.toIntentFields.facts

theorem recordFacts_eq {record other : SourceOrderRecord} (h : record.facts = other.facts) :
    record.side = other.side ∧ record.filledOunces = other.filledOunces ∧
    record.hedgePositionId = other.hedgePositionId ∧
    record.hedgePositionQuantityOunces = other.hedgePositionQuantityOunces := by
  have side := congrArg SourceOrderRecord.side h
  have filled := congrArg SourceOrderRecord.filledOunces h
  have ticket := congrArg SourceOrderRecord.hedgePositionId h
  have quantity := congrArg SourceOrderRecord.hedgePositionQuantityOunces h
  exact ⟨side, filled, ticket, quantity⟩

theorem intentFacts_eq {intent other : HedgeIntent} (h : intentFacts intent = intentFacts other) :
    intent.fillKey = other.fillKey ∧ intent.hedgeFilledOunces = other.hedgeFilledOunces ∧
    intent.hedgeOrderIds = other.hedgeOrderIds ∧
    intent.rejectedAttempt = other.rejectedAttempt := by
  have key := congrArg IntentFields.fillKey h
  have filled := congrArg IntentFields.hedgeFilledOunces h
  have history := congrArg IntentFields.hedgeOrderIds h
  have attempt := congrArg IntentFields.rejectedAttempt h
  exact ⟨key, filled, history, attempt⟩

/-- A change that leaves the books alone. -/
structure Quiet (s t : StoreState) : Prop where
  orders : t.sourceOrders.image SourceOrderRecord.facts =
    s.sourceOrders.image SourceOrderRecord.facts
  intents : t.hedgeIntents.image intentFacts = s.hedgeIntents.image intentFacts
  seenSource : t.seenSourceFills = s.seenSourceFills
  seenHedge : t.seenHedgeFills = s.seenHedgeFills
  residual : t.netUnhedgedOunces = s.netUnhedgedOunces

theorem Quiet.refl (s : StoreState) : Quiet s s := ⟨rfl, rfl, rfl, rfl, rfl⟩

theorem Quiet.sourced {s t : StoreState} (h : Quiet s t) :
    t.sourceOrders.total Ledger.signedFilled = s.sourceOrders.total Ledger.signedFilled :=
  Dict.total_of_image h.orders fun r => r.side.sign * r.filledOunces

theorem Quiet.owed {s t : StoreState} (h : Quiet s t) :
    t.hedgeIntents.total Ledger.signedQuantity = s.hedgeIntents.total Ledger.signedQuantity :=
  Dict.total_of_image h.intents fun i => i.hedgeSide.hedgeSign * i.hedgeQuantityOunces

theorem quiet_of_status {s t : StoreState} {order status : String} {record : SourceOrderRecord}
    (found : s.sourceOrders.get? order = some record)
    (orders : t.sourceOrders = s.sourceOrders.set order { record with status })
    (intents : t.hedgeIntents = s.hedgeIntents) (seenSource : t.seenSourceFills = s.seenSourceFills)
    (seenHedge : t.seenHedgeFills = s.seenHedgeFills)
    (residual : t.netUnhedgedOunces = s.netUnhedgedOunces) : Quiet s t :=
  ⟨by rw [orders]; exact Dict.image_set found rfl, by rw [intents], seenSource, seenHedge, residual⟩

theorem quiet_of_intent {s t : StoreState} {k : String} {intent updated : HedgeIntent}
    (found : s.hedgeIntents.get? k = some intent) (facts : intentFacts updated = intentFacts intent)
    (intents : t.hedgeIntents = s.hedgeIntents.set k updated)
    (orders : t.sourceOrders = s.sourceOrders) (seenSource : t.seenSourceFills = s.seenSourceFills)
    (seenHedge : t.seenHedgeFills = s.seenHedgeFills)
    (residual : t.netUnhedgedOunces = s.netUnhedgedOunces) : Quiet s t :=
  ⟨by rw [orders], by rw [intents, Dict.image_set found facts], seenSource, seenHedge, residual⟩

/-- What every trade keeps of the store and the deliveries made to it. -/
structure Kept (digest : String → String) (l : Ledger) : Prop where
  index : OrderIndex l.memory.hedgeIntents
  tickets : ∀ order record, l.memory.sourceOrders.get? order = some record →
    (record.hedgePositionId = none → record.hedgePositionQuantityOunces = none) ∧
      ∀ quantity ∈ record.hedgePositionQuantityOunces, 0 < quantity
  residual : l.memory.netUnhedgedOunces = l.memory.sourceOrders.total Ledger.signedFilled -
    l.memory.hedgeIntents.total Ledger.signedQuantity
  small : |l.memory.netUnhedgedOunces| ≤ 1 / 2
  sourceSeen : ∀ key, key ∈ l.memory.seenSourceFills ↔ key ∈ l.source.map SourceFill.fillKey
  sourceKnown : ∀ fill ∈ l.source, l.memory.sourceOrders.get? fill.clientOrderId ≠ none
  sourceCounted : SourceCounted l
  opened : ∀ k intent, l.memory.hedgeIntents.get? k = some intent →
    k = "hedge-" ++ digest intent.fillKey ∧ intent.fillKey ∈ l.memory.seenSourceFills
  unattempted : ∀ k intent, l.memory.hedgeIntents.get? k = some intent →
    intent.rejectedAttempt = none
  hedgeKnown : ∀ fill ∈ l.hedge, ∃ k intent, l.memory.hedgeIntents.get? k = some intent ∧
    fill.clientOrderId ∈ intent.hedgeOrderIds
  hedgeSeen : l.dropped = [] →
    ∀ key, key ∈ l.memory.seenHedgeFills ↔ key ∈ l.hedge.map HedgeFill.fillKey
  hedgeCounted : l.dropped = [] → HedgeCounted l

theorem kept_empty (digest : String → String) : Kept digest .empty where
  index := .empty
  tickets := by simp [Ledger.memory, Ledger.empty, JsonStateStore.empty, StoreState.emptyState]
  residual := by simp [Ledger.memory, Ledger.empty, JsonStateStore.empty, StoreState.emptyState]
  small := by simp [Ledger.memory, Ledger.empty, JsonStateStore.empty, StoreState.emptyState]
  sourceSeen := by simp [Ledger.memory, Ledger.empty, JsonStateStore.empty, StoreState.emptyState]
  sourceKnown := by simp [Ledger.empty]
  sourceCounted := by
    simp [SourceCounted, Ledger.memory, Ledger.empty, JsonStateStore.empty, StoreState.emptyState]
  opened := by simp [Ledger.memory, Ledger.empty, JsonStateStore.empty, StoreState.emptyState]
  unattempted := by simp [Ledger.memory, Ledger.empty, JsonStateStore.empty, StoreState.emptyState]
  hedgeKnown := by simp [Ledger.empty]
  hedgeSeen := by simp [Ledger.memory, Ledger.empty, JsonStateStore.empty, StoreState.emptyState]
  hedgeCounted := by
    simp [HedgeCounted, Ledger.memory, Ledger.empty, JsonStateStore.empty, StoreState.emptyState]

theorem kept_quiet {digest : String → String} {l l' : Ledger} (kept : Kept digest l)
    (quiet : Quiet l.memory l'.memory) (index : OrderIndex l'.memory.hedgeIntents)
    (source : l'.source = l.source) (hedge : l'.hedge = l.hedge)
    (dropped : l'.dropped = l.dropped) :
    Kept digest l' where
  index := index
  tickets order record found := by
    obtain ⟨old, was, facts⟩ := Dict.get?_of_image quiet.orders found
    obtain ⟨-, -, ticket, quantity⟩ := recordFacts_eq facts
    rw [← ticket, ← quantity]
    exact kept.tickets order old was
  residual := by rw [quiet.residual, quiet.sourced, quiet.owed]; exact kept.residual
  small := by rw [quiet.residual]; exact kept.small
  sourceSeen key := by rw [quiet.seenSource, source]; exact kept.sourceSeen key
  sourceKnown fill member := by
    rw [source] at member
    obtain ⟨record, was⟩ := Option.ne_none_iff_exists'.1 (kept.sourceKnown fill member)
    obtain ⟨now, found, -⟩ := Dict.get?_of_image quiet.orders.symm was
    simp [found]
  sourceCounted order record found := by
    obtain ⟨old, was, facts⟩ := Dict.get?_of_image quiet.orders found
    rw [← (recordFacts_eq facts).2.1, source]
    exact kept.sourceCounted order old was
  opened k intent found := by
    obtain ⟨old, was, facts⟩ := Dict.get?_of_image quiet.intents found
    rw [← (intentFacts_eq facts).1, quiet.seenSource]
    exact kept.opened k old was
  unattempted k intent found := by
    obtain ⟨old, was, facts⟩ := Dict.get?_of_image quiet.intents found
    rw [← (intentFacts_eq facts).2.2.2]
    exact kept.unattempted k old was
  hedgeKnown fill member := by
    rw [hedge] at member
    obtain ⟨k, intent, was, owned⟩ := kept.hedgeKnown fill member
    obtain ⟨now, found, facts⟩ := Dict.get?_of_image quiet.intents.symm was
    exact ⟨k, now, found, (intentFacts_eq facts).2.2.1 ▸ owned⟩
  hedgeSeen none key := by
    rw [quiet.seenHedge, hedge]
    exact kept.hedgeSeen (dropped ▸ none) key
  hedgeCounted none k intent found := by
    obtain ⟨old, was, facts⟩ := Dict.get?_of_image quiet.intents found
    obtain ⟨-, filled, history, -⟩ := intentFacts_eq facts
    rw [← filled, ← history, hedge]
    exact kept.hedgeCounted (dropped ▸ none) k old was

theorem recoverForStart_quiet {s t : StoreState} (index : OrderIndex s.hedgeIntents)
    (h : s.recoverForStart.Yields t) : Quiet s t := by
  obtain ⟨orders, v, halt, moved, mapped, rfl⟩ := StoreState.recoverForStart_yields h
  have start : Quiet s { s with sourceOrders := orders } := by
    obtain rfl | ⟨active, current, found, rfl⟩ := moved
    · exact .refl s
    · exact quiet_of_status found rfl rfl rfl rfl rfl
  have kept : Quiet s v := by
    refine mapIntents_of_keyed (s := { s with sourceOrders := orders })
      (fun u intent replaced _ quiet found made => ?_) index.keyed start
      (List.filter_sublist.trans List.filter_sublist) mapped
    have facts : intentFacts replaced = intentFacts intent := by
      rw [intentFacts, IntentFields.make_eq_ok made]
      rfl
    have step : Quiet u (u.setIntent intent.intentId replaced) :=
      quiet_of_intent found facts rfl rfl rfl rfl rfl
    exact ⟨step.orders.trans quiet.orders, step.intents.trans quiet.intents,
      quiet.seenSource, quiet.seenHedge, quiet.residual⟩
  exact ⟨kept.orders, kept.intents, kept.seenSource, kept.seenHedge, kept.residual⟩

/-- The calls that move no ounces. -/
def StoreOp.Idle : StoreOp → Prop
  | .freezeSourceSubmissions _ | .clearSourceFreeze | .recoverForStart | .updateSourceStatus _ _
  | .confirmSourceReconciled _ | .markSourceUnknown _ _ | .bindHedgePlan _ _
  | .blockHedgeIntent _ _ | .updateHedgeStatus _ _ _ => True
  | _ => False

theorem change_quiet {digest : String → String} {s t : StoreState} {op : StoreOp}
    (idle : op.Idle) (index : OrderIndex s.hedgeIntents) (h : (op.change digest s).Yields t) :
    Quiet s t := by
  cases op with
  | freezeSourceSubmissions =>
    simp only [StoreOp.change, StoreState.freezeSourceSubmissions] at h
    split_ifs at h <;> simp at h
    exact h ▸ ⟨rfl, rfl, rfl, rfl, rfl⟩
  | clearSourceFreeze =>
    simp only [StoreOp.change, StoreState.clearSourceFreeze] at h
    split_ifs at h <;> simp at h
    exact h ▸ ⟨rfl, rfl, rfl, rfl, rfl⟩
  | recoverForStart => exact recoverForStart_quiet index (by simpa [StoreOp.change] using h)
  | updateSourceStatus order status =>
    simp only [StoreOp.change, StoreState.updateSourceStatus] at h
    split at h
    · simp at h
    · rename_i record found
      rw [Change.yields_publishes] at h
      exact h ▸ quiet_of_status found rfl rfl rfl rfl rfl
  | confirmSourceReconciled =>
    simp only [StoreOp.change, StoreState.confirmSourceReconciled] at h
    split at h
    · simp at h
    · split_ifs at h <;> simp at h
      exact h ▸ ⟨rfl, rfl, rfl, rfl, rfl⟩
  | markSourceUnknown =>
    simp only [StoreOp.change, StoreState.markSourceUnknown, Change.yields_publishes] at h
    split at h
    · exact h ▸ ⟨rfl, rfl, rfl, rfl, rfl⟩
    · rename_i record found
      exact h ▸ quiet_of_status found rfl rfl rfl rfl rfl
  | bindHedgePlan =>
    rw [StoreOp.change, Change.discard_yields] at h
    obtain ⟨intent, planned, found, -, -, -, -, -, fields, rfl⟩ :=
      StoreState.bindHedgePlan_yields h
    have facts : intentFacts planned = intentFacts intent := by rw [intentFacts, fields]; rfl
    exact quiet_of_intent found facts rfl rfl rfl rfl rfl
  | blockHedgeIntent =>
    obtain ⟨intent, blocked, found, -, fields, rfl⟩ := StoreState.blockHedgeIntent_yields h
    have facts : intentFacts blocked = intentFacts intent := by rw [intentFacts, fields]; rfl
    exact quiet_of_intent found facts rfl rfl rfl rfl rfl
  | updateHedgeStatus =>
    obtain ⟨intent, updated, found, intents, orders, seenSource, seenHedge, residual, how⟩ :=
      StoreState.updateHedgeStatus_yields h
    obtain ⟨-, k, stored⟩ := StoreState.intentForHedgeOrder_eq_some found
    have facts : intentFacts updated = intentFacts intent := by
      obtain ⟨-, -, fields⟩ | ⟨-, -, -, fields⟩ := how <;> rw [intentFacts, fields] <;> rfl
    rw [index.keyed k intent stored] at intents
    exact quiet_of_intent stored facts intents orders seenSource seenHedge residual
  | beginSource | reserveSourceFill | bindHedgeOrder | applyHedgeFill | projectSourceFills
  | projectHedgeFills | settleCompleted => exact idle.elim

theorem kept_begin {digest : String → String} {l l' : Ledger} (request : SourceRequest)
    (kept : Kept digest l) (fresh : l.memory.sourceOrders.get? request.clientOrderId = none)
    (h : (l.memory.beginSource l.memory.sourceBalanceIsAdmissible request).Yields l'.memory)
    (source : l'.source = l.source) (hedge : l'.hedge = l.hedge)
    (dropped : l'.dropped = l.dropped) :
    Kept digest l' := by
  unfold StoreState.beginSource at h
  split at h
  · simp at h
  · rename_i checked
    rw [Change.yields_publishes] at h
    simp only [StoreState.checkRequest, bind_unit_eq_ok, raiseIf_eq_ok] at checked
    obtain ⟨-, -, -, paired, -, positive⟩ := checked
    have orders : l'.memory.sourceOrders =
        l.memory.sourceOrders.set request.clientOrderId request.record := by rw [← h]
    have intents : l'.memory.hedgeIntents = l.memory.hedgeIntents := by rw [← h]
    have seenSource : l'.memory.seenSourceFills = l.memory.seenSourceFills := by rw [← h]
    have seenHedge : l'.memory.seenHedgeFills = l.memory.seenHedgeFills := by rw [← h]
    have residual : l'.memory.netUnhedgedOunces = l.memory.netUnhedgedOunces := by rw [← h]
    refine ⟨?_, ?_, ?_, ?_, ?_, ?_, ?_, ?_, ?_, ?_, ?_, ?_⟩
    · rw [intents]; exact kept.index
    · intro order record found
      rw [orders, Dict.get?_set] at found
      split at found
      · obtain rfl := Option.some.inj found
        refine ⟨fun absent => ?_, by simpa [SourceRequest.record] using positive⟩
        have absent : request.hedgePositionId = none := absent
        have none : request.hedgePositionQuantityOunces = none := by simpa [absent] using paired
        exact none
      · exact kept.tickets order record found
    · rw [residual, orders, intents, Dict.total_set_of_get?_none _ fresh, kept.residual]
      simp [Ledger.signedFilled, SourceRequest.record]
    · rw [residual]; exact kept.small
    · intro key; rw [seenSource, source]; exact kept.sourceSeen key
    · intro fill member
      rw [source] at member
      rw [orders, Dict.get?_set]
      split
      · simp
      · exact kept.sourceKnown fill member
    · intro order record found
      rw [orders, Dict.get?_set] at found
      rw [source]
      split at found
      · rename_i same
        obtain rfl := Option.some.inj found
        rw [countedOnce_eq_zero]
        · rfl
        · rintro fill member named
          exact kept.sourceKnown fill member (by rw [named, ← same]; exact fresh)
      · exact kept.sourceCounted order record found
    · rw [intents, seenSource]; exact kept.opened
    · rw [intents]; exact kept.unattempted
    · rw [intents, hedge]; exact kept.hedgeKnown
    · intro none; rw [seenHedge, hedge]; exact kept.hedgeSeen (dropped ▸ none)
    · intro none; unfold HedgeCounted; rw [intents, hedge]
      exact kept.hedgeCounted (dropped ▸ none)

theorem kept_bind {digest : String → String} {l l' : Ledger} (intentId order : String)
    (kept : Kept digest l) (h : (l.memory.bindHedgeOrder intentId order).Yields l'.memory)
    (source : l'.source = l.source) (hedge : l'.hedge = l.hedge)
    (dropped : l'.dropped = l.dropped) :
    Kept digest l' := by
  have index := bindHedgeOrder_index kept.index h
  obtain ⟨intent, bound, found, -, -, -, fresh, fields, moved⟩ := StoreState.bindHedgeOrder_yields h
  have intents : l'.memory.hedgeIntents = l.memory.hedgeIntents.set intentId bound := by
    rw [moved]; rfl
  have unclaimed : ∀ fill ∈ l.hedge, fill.clientOrderId ≠ order := by
    intro fill member same
    obtain ⟨k, other, present, owned⟩ := kept.hedgeKnown fill member
    exact (fresh other ((Dict.mem_values_iff _ _).2 ⟨k, present⟩)).2 (same ▸ owned)
  have history : bound.hedgeOrderIds = intent.hedgeOrderIds ++ [order] := by rw [fields]
  have worth : Ledger.signedQuantity bound = Ledger.signedQuantity intent := by
    simp only [Ledger.signedQuantity, fields]
  refine ⟨index, ?_, ?_, ?_, ?_, ?_, ?_, ?_, ?_, ?_, ?_, ?_⟩
  · rw [moved]; exact kept.tickets
  · rw [intents, Dict.total_set_of_get? _ found, worth, sub_add_cancel, moved]
    exact kept.residual
  · rw [moved]; exact kept.small
  · rw [moved, source]; exact kept.sourceSeen
  · rw [moved, source]; exact kept.sourceKnown
  · unfold SourceCounted; rw [moved, source]; exact kept.sourceCounted
  · intro k other present
    rw [intents, Dict.get?_set] at present
    rw [show l'.memory.seenSourceFills = l.memory.seenSourceFills by rw [moved]; rfl]
    split at present
    · rename_i same
      obtain rfl := Option.some.inj present
      rw [show bound.fillKey = intent.fillKey by rw [fields], ← same]
      exact kept.opened intentId intent found
    · exact kept.opened k other present
  · intro k other present
    rw [intents, Dict.get?_set] at present
    split at present
    · obtain rfl := Option.some.inj present
      rw [show bound.rejectedAttempt = intent.rejectedAttempt by rw [fields]]
      exact kept.unattempted intentId intent found
    · exact kept.unattempted k other present
  · intro fill member
    rw [hedge] at member
    obtain ⟨k, other, present, owned⟩ := kept.hedgeKnown fill member
    by_cases same : intentId = k
    · subst same
      obtain rfl := Option.some.inj (found.symm.trans present)
      exact ⟨intentId, bound, by rw [intents, Dict.get?_set_self], by simp [history, owned]⟩
    · exact ⟨k, other, by rw [intents, Dict.get?_set_of_ne _ same]; exact present, owned⟩
  · intro none; rw [moved, hedge]; exact kept.hedgeSeen (dropped ▸ none)
  · intro none k other present
    rw [intents, Dict.get?_set] at present
    rw [hedge]
    split at present
    · obtain rfl := Option.some.inj present
      rw [show bound.hedgeFilledOunces = intent.hedgeFilledOunces by rw [fields],
        kept.hedgeCounted (dropped ▸ none) intentId intent found]
      refine countedOnce_congr _ _ fun fill member => ?_
      simp [history, unclaimed fill member]
    · exact kept.hedgeCounted (dropped ▸ none) k other present

/-- Opening an intent for a recorded fill never fails. -/
theorem openedIntent_sound (digest : String → String) (fill : SourceFill)
    {record : SourceOrderRecord} {rounded : ℤ}
    (ticket : record.hedgePositionId = none → record.hedgePositionQuantityOunces = none)
    (positive : ∀ quantity ∈ record.hedgePositionQuantityOunces, 0 < quantity)
    (nonzero : rounded ≠ 0) :
    (StoreState.openedIntent digest record fill none rounded).Sound where
  ticket := ticket
  ticketPositive := positive
  quantityPositive := abs_pos.2 (by exact_mod_cast nonzero)
  filledNonneg := le_refl _
  indexBound := le_refl _
  legFilledNonneg := le_refl _
  orderIds := ⟨by simp [StoreState.openedIntent], by simp [StoreState.openedIntent]⟩
  attempt := by simp [StoreState.openedIntent]
  unplanned _ := ⟨rfl, rfl⟩
  planned planned := absurd rfl planned

/-- What an accepted source fill makes of the state. -/
structure Filled (digest : String → String) (s : StoreState) (fill : SourceFill)
    (record : SourceOrderRecord) (t : StoreState) : Prop where
  orders : ∃ status, t.sourceOrders = s.sourceOrders.set fill.clientOrderId
    { record with filledOunces := record.filledOunces + fill.fillOunces, status }
  seenSource : t.seenSourceFills = insert fill.fillKey s.seenSourceFills
  seenHedge : t.seenHedgeFills = s.seenHedgeFills
  residual : t.netUnhedgedOunces = s.netUnhedgedOunces + fill.signedFill -
    roundHedgeOunces (s.netUnhedgedOunces + fill.signedFill)
  intents : (roundHedgeOunces (s.netUnhedgedOunces + fill.signedFill) = 0 ∧
      t.hedgeIntents = s.hedgeIntents) ∨
    (∃ intent : HedgeIntent, t.hedgeIntents = s.hedgeIntents.set intent.intentId intent ∧
      intent.toIntentFields = StoreState.openedIntent digest record fill none
        (roundHedgeOunces (s.netUnhedgedOunces + fill.signedFill)) ∧
      roundHedgeOunces (s.netUnhedgedOunces + fill.signedFill) ≠ 0)

theorem applySourceFill_filled {digest : String → String} {s t : StoreState} {fill : SourceFill}
    {opened : Option HedgeIntent} (unseen : fill.fillKey ∉ s.seenSourceFills)
    {record : SourceOrderRecord} (found : s.sourceOrders.get? fill.clientOrderId = some record)
    (h : s.applySourceFill digest fill none = .ok (t, opened)) :
    record.side = fill.sourceSide ∧ 0 < fill.fillOunces ∧ Filled digest s fill record t := by
  rw [StoreState.applySourceFill, if_neg unseen] at h
  simp only [found, bind_eq_ok] at h
  obtain ⟨recorded, record_ok, h⟩ := h
  obtain ⟨side, positive, orders, seenSource, seenHedge, intents, residual⟩ :=
    StoreState.recordSourceFill_eq_ok record_ok
  have rounded : (recorded.allocateSourceFill fill.signedFill).2 =
      roundHedgeOunces (s.netUnhedgedOunces + fill.signedFill) := by
    simp [StoreState.allocateSourceFill, residual]
  have kept : (recorded.allocateSourceFill fill.signedFill).1.netUnhedgedOunces =
      s.netUnhedgedOunces + fill.signedFill -
        roundHedgeOunces (s.netUnhedgedOunces + fill.signedFill) := by
    simp [StoreState.allocateSourceFill, residual]
  refine ⟨side, positive, ?_⟩
  obtain ⟨zero, rfl, -⟩ | ⟨nonzero, intent, fields, -, rfl⟩ :=
    StoreState.openHedgeIntent_eq_ok h
  · exact ⟨orders, seenSource, seenHedge, kept, .inl ⟨rounded ▸ zero, intents⟩⟩
  · refine ⟨orders, seenSource, seenHedge, kept, .inr ⟨intent, ?_, rounded ▸ fields,
      rounded ▸ nonzero⟩⟩
    exact congrArg (fun d => Dict.set d intent.intentId intent) intents

theorem applySourceFill_total (digest : String → String) {s : StoreState} {fill : SourceFill}
    (unseen : fill.fillKey ∉ s.seenSourceFills) {record : SourceOrderRecord}
    (found : s.sourceOrders.get? fill.clientOrderId = some record)
    (side : record.side = fill.sourceSide) (positive : 0 < fill.fillOunces)
    (ticket : record.hedgePositionId = none → record.hedgePositionQuantityOunces = none)
    (quantity : ∀ quantity ∈ record.hedgePositionQuantityOunces, 0 < quantity) :
    ∃ t opened, s.applySourceFill digest fill none = .ok (t, opened) := by
  obtain ⟨recorded, record_ok⟩ : ∃ t, s.recordSourceFill record fill none = .ok t := by
    have checked :
      raiseIf (fill.fillOunces ≤ 0) (Raised.valueError "fill quantity must be positive")
        = .ok () := by simpa using positive
    have sides : raiseIf (record.side ≠ fill.sourceSide)
        (Raised.valueError "source fill side does not match submitted order") = .ok () := by
      simpa using side
    unfold StoreState.recordSourceFill
    rw [sides, checked]
    dsimp only [bind, Except.bind]
    split <;> exact ⟨_, rfl⟩
  rw [StoreState.applySourceFill, if_neg unseen]
  simp only [found, record_ok]
  dsimp only [bind, Except.bind]
  unfold StoreState.openHedgeIntent
  split
  · exact ⟨_, _, rfl⟩
  · rename_i nonzero
    obtain ⟨intent, made, -⟩ := (openedIntent_sound digest fill ticket quantity nonzero).make
    rw [made]
    exact ⟨_, _, rfl⟩

theorem signedFill_eq (fill : SourceFill) :
    fill.signedFill = fill.sourceSide.sign * fill.fillOunces := by
  unfold SourceFill.signedFill
  cases fill.sourceSide <;> simp [BusinessOrderSide.sign]

theorem signedQuantity_opened {digest : String → String} {record : SourceOrderRecord}
    {fill : SourceFill} {blockedReason : Option String} {rounded : ℤ} {intent : HedgeIntent}
    (fields : intent.toIntentFields =
      StoreState.openedIntent digest record fill blockedReason rounded) :
    Ledger.signedQuantity intent = rounded := by
  rw [Ledger.signedQuantity, fields]
  simp only [StoreState.openedIntent]
  split
  · rename_i positive
    have positive : (0 : ℚ) < rounded := by exact_mod_cast positive
    rw [abs_of_pos positive, BusinessOrderSide.hedgeSign, one_mul]
  · rename_i negative
    have negative : (rounded : ℚ) ≤ 0 := by exact_mod_cast not_lt.1 negative
    rw [abs_of_nonpos negative, BusinessOrderSide.hedgeSign]
    ring

theorem kept_filled {digest : String → String} {l l' : Ledger} {fill : SourceFill}
    {record : SourceOrderRecord} (kept : Kept digest l)
    (index : OrderIndex l'.memory.hedgeIntents) (unseen : fill.fillKey ∉ l.memory.seenSourceFills)
    (found : l.memory.sourceOrders.get? fill.clientOrderId = some record)
    (side : record.side = fill.sourceSide) (filled : Filled digest l.memory fill record l'.memory)
    (distinct : ∀ intent ∈ l.memory.hedgeIntents.values,
      digest intent.fillKey = digest fill.fillKey → intent.fillKey = fill.fillKey)
    (source : l'.source = l.source ++ [fill]) (hedge : l'.hedge = l.hedge)
    (dropped : l'.dropped = l.dropped) : Kept digest l' := by
  obtain ⟨status, orders⟩ := filled.orders
  have fresh_key : fill.fillKey ∉ l.source.map SourceFill.fillKey := fun seen =>
    unseen ((kept.sourceSeen _).2 seen)
  have fresh_intent : l.memory.hedgeIntents.get? ("hedge-" ++ digest fill.fillKey) = none := by
    rw [Option.eq_none_iff_forall_ne_some]
    intro old present
    obtain ⟨id, seen⟩ := kept.opened _ old present
    have same : digest fill.fillKey = digest old.fillKey := by simpa using id
    have key := distinct old ((Dict.mem_values_iff _ _).2 ⟨_, present⟩) same.symm
    exact unseen (key ▸ seen)
  have opened_id : ∀ {intent : HedgeIntent} {rounded : ℤ}, intent.toIntentFields =
      StoreState.openedIntent digest record fill none rounded →
      intent.intentId = "hedge-" ++ digest fill.fillKey := fun fields => by rw [fields]; rfl
  have stored : ∀ k intent, l'.memory.hedgeIntents.get? k = some intent →
      l.memory.hedgeIntents.get? k = some intent ∨ ∃ rounded : ℤ,
        k = "hedge-" ++ digest fill.fillKey ∧ intent.toIntentFields =
          StoreState.openedIntent digest record fill none rounded := by
    intro k intent present
    obtain ⟨-, same⟩ | ⟨new, intents, fields, -⟩ := filled.intents
    · exact .inl (same ▸ present)
    · rw [intents, Dict.get?_set] at present
      split at present
      · rename_i id
        obtain rfl := Option.some.inj present
        exact .inr ⟨_, id.symm.trans (opened_id fields), fields⟩
      · exact .inl present
  have remains : ∀ k intent, l.memory.hedgeIntents.get? k = some intent →
      l'.memory.hedgeIntents.get? k = some intent := by
    intro k intent present
    obtain ⟨-, same⟩ | ⟨new, intents, fields, -⟩ := filled.intents
    · rw [same]; exact present
    · have apart : new.intentId ≠ k := by
        rintro rfl
        rw [opened_id fields, fresh_intent] at present
        cases present
      rw [intents, Dict.get?_set_of_ne _ apart]; exact present
  refine ⟨index, ?_, ?_, ?_, ?_, ?_, ?_, ?_, ?_, ?_, ?_, ?_⟩
  · intro order other present
    rw [orders, Dict.get?_set] at present
    split at present
    · obtain rfl := Option.some.inj present
      exact kept.tickets fill.clientOrderId record found
    · exact kept.tickets order other present
  · have sourced : l'.memory.sourceOrders.total Ledger.signedFilled =
        l.memory.sourceOrders.total Ledger.signedFilled + fill.signedFill := by
      rw [orders, Dict.total_set_of_get? _ found, signedFill_eq, ← side]
      simp only [Ledger.signedFilled]
      ring
    have owed : l'.memory.hedgeIntents.total Ledger.signedQuantity =
        l.memory.hedgeIntents.total Ledger.signedQuantity +
          roundHedgeOunces (l.memory.netUnhedgedOunces + fill.signedFill) := by
      obtain ⟨zero, same⟩ | ⟨new, intents, fields, -⟩ := filled.intents
      · rw [same, zero]; simp
      · rw [intents, opened_id fields, Dict.total_set_of_get?_none _ fresh_intent,
          signedQuantity_opened fields]
    rw [filled.residual, sourced, owed, kept.residual]
    ring
  · rw [filled.residual]
    exact abs_carry_le l.memory.netUnhedgedOunces fill.signedFill
  · intro key
    rw [filled.seenSource, source, Finset.mem_insert, kept.sourceSeen]
    simp [or_comm]
  · intro other member
    rw [orders, Dict.get?_set]
    split
    · simp
    · rename_i apart
      rw [source, List.mem_append, List.mem_singleton] at member
      obtain old | rfl := member
      · exact kept.sourceKnown other old
      · exact absurd rfl apart
  · intro order other present
    rw [source, countedOnce_new _ _ _ fresh_key]
    rw [orders, Dict.get?_set] at present
    split at present
    · rename_i same
      subst same
      obtain rfl := Option.some.inj present
      simp [← kept.sourceCounted fill.clientOrderId record found]
    · rename_i apart
      simp [apart, ← kept.sourceCounted order other present]
  · intro k intent present
    rw [filled.seenSource]
    obtain old | ⟨rounded, rfl, fields⟩ := stored k intent present
    · exact ⟨(kept.opened k intent old).1, Finset.mem_insert_of_mem (kept.opened k intent old).2⟩
    · have key : intent.fillKey = fill.fillKey := by rw [fields]; rfl
      rw [key]
      exact ⟨rfl, Finset.mem_insert_self _ _⟩
  · intro k intent present
    obtain old | ⟨rounded, -, fields⟩ := stored k intent present
    · exact kept.unattempted k intent old
    · rw [fields]; rfl
  · intro other member
    rw [hedge] at member
    obtain ⟨k, intent, present, owned⟩ := kept.hedgeKnown other member
    exact ⟨k, intent, remains k intent present, owned⟩
  · intro none
    rw [filled.seenHedge, hedge]
    exact kept.hedgeSeen (dropped ▸ none)
  · intro none k intent present
    rw [hedge]
    obtain old | ⟨rounded, -, fields⟩ := stored k intent present
    · exact kept.hedgeCounted (dropped ▸ none) k intent old
    · have blank : intent.hedgeOrderIds = [] := by rw [fields]; rfl
      rw [countedOnce_eq_zero _ _ fun other _ => by simp [blank], fields]
      rfl

theorem kept_advanced {digest : String → String} {l l' : Ledger} {fill : HedgeFill} {k : String}
    {intent advanced : HedgeIntent} {halt : Option String} (kept : Kept digest l)
    (index : OrderIndex l'.memory.hedgeIntents)
    (unseen : fill.fillKey ∉ l.memory.seenHedgeFills)
    (found : l.memory.hedgeIntents.get? k = some intent)
    (owned : fill.clientOrderId ∈ intent.hedgeOrderIds)
    (advance : StoreState.Advance intent fill advanced.toIntentFields)
    (moved : l'.memory = { l.memory.setIntent k advanced with
      seenHedgeFills := insert fill.fillKey l.memory.seenHedgeFills
      haltReason := halt })
    (source : l'.source = l.source) (hedge : l'.hedge = l.hedge ++ [fill])
    (dropped : l'.dropped = l.dropped) : Kept digest l' := by
  obtain ⟨-, key, sides, quantity, history, attempt, -⟩ := advance.frame
  have intents : l'.memory.hedgeIntents = l.memory.hedgeIntents.set k advanced := by
    rw [moved]; rfl
  refine ⟨index, ?_, ?_, ?_, ?_, ?_, ?_, ?_, ?_, ?_, ?_, ?_⟩
  · rw [moved]; exact kept.tickets
  · have worth : Ledger.signedQuantity advanced = Ledger.signedQuantity intent := by
      rw [Ledger.signedQuantity, sides, quantity, Ledger.signedQuantity]
    rw [intents, Dict.total_set_of_get? _ found, worth, sub_add_cancel, moved]
    exact kept.residual
  · rw [moved]; exact kept.small
  · rw [moved, source]; exact kept.sourceSeen
  · rw [moved, source]; exact kept.sourceKnown
  · unfold SourceCounted; rw [moved, source]; exact kept.sourceCounted
  · intro k' other present
    rw [intents, Dict.get?_set] at present
    rw [show l'.memory.seenSourceFills = l.memory.seenSourceFills by rw [moved]; rfl]
    split at present
    · rename_i same
      obtain rfl := Option.some.inj present
      rw [key, ← same]
      exact kept.opened k intent found
    · exact kept.opened k' other present
  · intro k' other present
    rw [intents, Dict.get?_set] at present
    split at present
    · obtain rfl := Option.some.inj present
      rw [attempt]
      exact kept.unattempted k intent found
    · exact kept.unattempted k' other present
  · intro other member
    rw [hedge, List.mem_append, List.mem_singleton] at member
    obtain old | rfl := member
    · obtain ⟨k', named, present, claims⟩ := kept.hedgeKnown other old
      by_cases same : k = k'
      · subst same
        obtain rfl := Option.some.inj (found.symm.trans present)
        exact ⟨k, advanced, by rw [intents, Dict.get?_set_self], history ▸ claims⟩
      · exact ⟨k', named, by rw [intents, Dict.get?_set_of_ne _ same]; exact present, claims⟩
    · exact ⟨k, advanced, by rw [intents, Dict.get?_set_self], history ▸ owned⟩
  · intro none other
    rw [show l'.memory.seenHedgeFills = insert fill.fillKey l.memory.seenHedgeFills by rw [moved],
      hedge, Finset.mem_insert, kept.hedgeSeen (dropped ▸ none)]
    simp [or_comm]
  · intro none k' other present
    have fresh : fill.fillKey ∉ l.hedge.map HedgeFill.fillKey := fun seen =>
      unseen ((kept.hedgeSeen (dropped ▸ none) _).2 seen)
    rw [hedge, countedOnce_new _ _ _ fresh]
    rw [intents, Dict.get?_set] at present
    split at present
    · obtain rfl := Option.some.inj present
      have before := kept.hedgeCounted (dropped ▸ none) k intent found
      simp only [history, owned, if_true, advance.filled, before]
    · rename_i apart
      have foreign : fill.clientOrderId ∉ other.hedgeOrderIds := fun claims =>
        apart (kept.index.owner k k' intent other _ found present owned claims)
      simp [foreign, ← kept.hedgeCounted (dropped ▸ none) k' other present]

/-- A delivery that changes nothing in the store only has to be booked right. -/
theorem kept_booked {digest : String → String} {l : Ledger} (kept : Kept digest l)
    {hedge dropped : List HedgeFill}
    (known : ∀ fill ∈ hedge, ∃ k intent, l.memory.hedgeIntents.get? k = some intent ∧
      fill.clientOrderId ∈ intent.hedgeOrderIds)
    (counted : dropped = [] → (∀ key, key ∈ l.memory.seenHedgeFills ↔
      key ∈ hedge.map HedgeFill.fillKey) ∧ HedgeCounted { l with hedge := hedge }) :
    Kept digest { l with hedge := hedge, dropped := dropped } :=
  ⟨kept.index, kept.tickets, kept.residual, kept.small, kept.sourceSeen, kept.sourceKnown,
    kept.sourceCounted, kept.opened, kept.unattempted, known, fun none => (counted none).1,
    fun none => (counted none).2⟩

theorem kept_hedge {digest : String → String} {l : Ledger} (kept : Kept digest l)
    (fill : HedgeFill) : Kept digest (l.call digest (.applyHedgeFill fill)) := by
  obtain ⟨t, yields, saved⟩ | ⟨silent, same⟩ := l.store.commit_published
    (StoreOp.change digest l.memory (.applyHedgeFill fill))
  · have index := change_index kept.index yields
    have memory : (l.call digest (.applyHedgeFill fill)).memory = t :=
      congrArg JsonStateStore.memory saved
    rw [StoreOp.change, Change.discard_yields] at yields
    obtain ⟨unseen, applied⟩ := StoreState.applyHedgeFill_yields yields
    obtain ⟨-, unchanged, -⟩ | ⟨intent, -, -, found, archived, -⟩ |
      ⟨intent, advanced, -, found, -, positive, fields, -, moved⟩ :=
      StoreState.applyFill_eq_ok applied
    · cases unchanged
    · obtain ⟨-, k, stored⟩ := StoreState.intentForHedgeOrder_eq_some found
      obtain ⟨attempt, present, -⟩ := archived
      rw [kept.unattempted k intent stored] at present
      cases present
    · obtain ⟨known, k, stored⟩ := StoreState.intentForHedgeOrder_eq_some found
      have claims := kept.index.recorded stored known
      have owns : l.memory.OwnsHedge fill :=
        ⟨positive, intent, (Dict.mem_values_iff _ _).2 ⟨k, stored⟩, claims⟩
      have finds : ¬l.memory.Drops fill := fun drops => by
        rw [drops.2.2] at found; cases found
      have advance := StoreState.advanceFields_advance intent positive l.memory.haltReason none
      rw [kept.index.keyed k intent stored] at moved
      exact kept_advanced kept (memory ▸ index) unseen stored claims (fields ▸ advance)
        (memory.trans moved) rfl (by simp [Ledger.call, Ledger.deliverHedge, owns])
        (by simp [Ledger.call, Ledger.drop, finds])
  · have booked : l.call digest (.applyHedgeFill fill) = { l with
        hedge := l.deliverHedge (.applyHedgeFill fill)
        dropped := l.drop (.applyHedgeFill fill) } := by
      simp only [Ledger.call, same, Ledger.deliverSource]
    rw [booked]
    by_cases owns : l.memory.OwnsHedge fill
    · obtain ⟨positive, intent, member, claims⟩ := owns
      obtain ⟨k, stored⟩ := (Dict.mem_values_iff _ _).1 member
      have owns : l.memory.OwnsHedge fill := ⟨positive, intent, member, claims⟩
      refine kept_booked kept (fun other delivered => ?_) fun none => ?_
      · rw [Ledger.deliverHedge, if_pos owns, List.mem_append, List.mem_singleton] at delivered
        obtain old | rfl := delivered
        · exact kept.hedgeKnown other old
        · exact ⟨k, intent, stored, claims⟩
      · have seen : fill.fillKey ∈ l.memory.seenHedgeFills := by
          by_contra unseen
          cases lookup : l.memory.intentForHedgeOrder fill.clientOrderId with
          | none => simp [Ledger.drop, StoreState.Drops, owns, unseen, lookup] at none
          | some hit =>
            obtain ⟨-, k', present⟩ := StoreState.intentForHedgeOrder_eq_some lookup
            have current : ¬isRejectedAttempt hit fill.clientOrderId := by
              rintro ⟨attempt, archived, -⟩
              rw [kept.unattempted k' hit present] at archived
              cases archived
            obtain ⟨t, applied⟩ : ∃ t, l.memory.applyHedgeFill fill = .reserves t true := by
              obtain ⟨advanced, -, applied⟩ :=
                applyHedgeFill_current unseen positive lookup current
              exact ⟨_, applied⟩
            refine silent t ?_
            rw [StoreOp.change, Change.discard_yields, applied]
            exact .reserves _ _
        have finds : ¬l.memory.Drops fill := fun drops => drops.2.1 seen
        rw [Ledger.drop, if_neg finds] at none
        have listed := (kept.hedgeSeen none fill.fillKey).1 seen
        rw [Ledger.deliverHedge, if_pos owns]
        refine ⟨fun key => ?_, fun k' other present => ?_⟩
        · rw [kept.hedgeSeen none key, List.map_append, List.mem_append]
          refine ⟨.inl, ?_⟩
          rintro (old | new)
          · exact old
          · simp only [List.map_cons, List.map_nil, List.mem_singleton] at new
            exact new ▸ listed
        · rw [countedOnce_seen _ _ _ listed]
          exact kept.hedgeCounted none k' other present
    · have finds : ¬l.memory.Drops fill := fun drops => owns drops.1
      simp only [Ledger.deliverHedge, Ledger.drop, if_neg owns, if_neg finds]
      exact kept

theorem kept_source {digest : String → String} {l : Ledger} (kept : Kept digest l)
    {fill : SourceFill} (distinct : ∀ intent ∈ l.memory.hedgeIntents.values,
      digest intent.fillKey = digest fill.fillKey → intent.fillKey = fill.fillKey) :
    Kept digest (l.call digest (.reserveSourceFill fill)) := by
  obtain ⟨t, yields, saved⟩ | ⟨silent, same⟩ := l.store.commit_published
    (StoreOp.change digest l.memory (.reserveSourceFill fill))
  · have index := change_index kept.index yields
    have memory : (l.call digest (.reserveSourceFill fill)).memory = t :=
      congrArg JsonStateStore.memory saved
    rw [StoreOp.change, Change.discard_yields, StoreState.reserveSourceFill] at yields
    split at yields
    · simp at yields
    · rename_i accepted
      rw [not_or, not_not] at accepted
      obtain ⟨unseen, known⟩ := accepted
      obtain ⟨record, found⟩ := Option.ne_none_iff_exists'.1 known
      split at yields
      · simp at yields
      · rename_i applied
        rw [Change.yields_reserves] at yields
        subst yields
        obtain ⟨side, positive, filled⟩ := applySourceFill_filled unseen found applied
        have owns : l.memory.OwnsSource fill := ⟨positive, record, by simp [found], side⟩
        exact kept_filled kept (memory ▸ index) unseen found side (memory ▸ filled) distinct
          (by simp [Ledger.call, Ledger.deliverSource, owns]) rfl rfl
  · have booked : l.call digest (.reserveSourceFill fill) = { l with
        source := l.deliverSource (.reserveSourceFill fill) } := by
      simp only [Ledger.call, same, Ledger.deliverHedge, Ledger.drop]
    rw [booked]
    by_cases owns : l.memory.OwnsSource fill
    · obtain ⟨positive, record, member, side⟩ := owns
      have found : l.memory.sourceOrders.get? fill.clientOrderId = some record := by
        simpa using member
      have owns : l.memory.OwnsSource fill := ⟨positive, record, member, side⟩
      have seen : fill.fillKey ∈ l.memory.seenSourceFills := by
        by_contra unseen
        obtain ⟨ticket, quantity⟩ := kept.tickets _ record found
        obtain ⟨t, opened, applied⟩ :=
          applySourceFill_total digest unseen found side positive ticket quantity
        have accepted : ¬(fill.fillKey ∈ l.memory.seenSourceFills ∨
            ¬l.memory.knowsSourceOrder fill.clientOrderId) := by
          simp [unseen, StoreState.knowsSourceOrder, found]
        refine silent t ?_
        rw [StoreOp.change, Change.discard_yields, StoreState.reserveSourceFill, if_neg accepted,
          applied]
        exact .reserves _ _
      have listed := (kept.sourceSeen fill.fillKey).1 seen
      rw [Ledger.deliverSource, if_pos owns]
      refine ⟨kept.index, kept.tickets, kept.residual, kept.small, fun key => ?_,
        fun other delivered => ?_, fun order other present => ?_, kept.opened, kept.unattempted,
        kept.hedgeKnown, kept.hedgeSeen, kept.hedgeCounted⟩
      · refine (kept.sourceSeen key).trans ?_
        simp only [List.map_append, List.mem_append]
        refine ⟨.inl, ?_⟩
        rintro (old | new)
        · exact old
        · simp only [List.map_cons, List.map_nil, List.mem_singleton] at new
          exact new ▸ listed
      · rw [List.mem_append, List.mem_singleton] at delivered
        obtain old | rfl := delivered
        · exact kept.sourceKnown other old
        · exact fun absent => by cases found.symm.trans absent
      · rw [countedOnce_seen _ _ _ listed]
        exact kept.sourceCounted order other present
    · simp only [Ledger.deliverSource, if_neg owns]
      exact kept

theorem kept_idle {digest : String → String} {l : Ledger} {op : StoreOp} (kept : Kept digest l)
    (idle : op.Idle) : Kept digest (l.call digest op) := by
  have quiet : Quiet l.memory (l.call digest op).memory ∧
      OrderIndex (l.call digest op).memory.hedgeIntents := by
    obtain ⟨t, yields, saved⟩ | ⟨-, same⟩ := l.store.commit_published (op.change digest l.memory)
    · have memory : (l.call digest op).memory = t := congrArg JsonStateStore.memory saved
      rw [memory]
      exact ⟨change_quiet idle kept.index yields, change_index kept.index yields⟩
    · have memory : (l.call digest op).memory = l.memory := congrArg JsonStateStore.memory same
      rw [memory]
      exact ⟨.refl _, kept.index⟩
  cases op with
  | beginSource | reserveSourceFill | bindHedgeOrder | applyHedgeFill | projectSourceFills
  | projectHedgeFills | settleCompleted => exact idle.elim
  | _ => exact kept_quiet kept quiet.1 quiet.2 rfl rfl rfl

theorem traded_kept {digest : String → String} {l : Ledger} (h : Traded digest l) :
    Kept digest l := by
  induction h with
  | start => exact kept_empty digest
  | @call l op _ admissible kept =>
    cases op with
    | beginSource request =>
      obtain ⟨t, yields, saved⟩ | ⟨-, same⟩ := l.store.commit_published
        (StoreOp.change digest l.memory (.beginSource request))
      · refine kept_begin request kept admissible ?_ rfl rfl rfl
        rwa [show (l.call digest _).memory = t from congrArg JsonStateStore.memory saved]
      · have idle : l.call digest (.beginSource request) = l := by
          simp only [Ledger.call, same, Ledger.deliverSource, Ledger.deliverHedge, Ledger.drop]
        rw [idle]
        exact kept
    | reserveSourceFill fill => exact kept_source kept admissible
    | bindHedgeOrder intentId order =>
      obtain ⟨t, yields, saved⟩ | ⟨-, same⟩ := l.store.commit_published
        (StoreOp.change digest l.memory (.bindHedgeOrder intentId order))
      · refine kept_bind intentId order kept ?_ rfl rfl rfl
        rwa [show (l.call digest _).memory = t from congrArg JsonStateStore.memory saved]
      · have idle : l.call digest (.bindHedgeOrder intentId order) = l := by
          simp only [Ledger.call, same, Ledger.deliverSource, Ledger.deliverHedge, Ledger.drop]
        rw [idle]
        exact kept
    | applyHedgeFill fill => exact kept_hedge kept fill
    | projectSourceFills | projectHedgeFills | settleCompleted => exact admissible.elim
    | _ => exact kept_idle kept trivial

theorem kept_balanced {digest : String → String} {l : Ledger} (kept : Kept digest l) :
    Balanced l := by
  have owed : l.memory.hedgeIntents.total StoreState.outstanding =
      l.memory.hedgeIntents.total Ledger.signedQuantity -
        l.memory.hedgeIntents.total Ledger.signedHedged := by
    rw [← Dict.total_sub]
    congr 1
    funext intent
    simp only [StoreState.outstanding, Ledger.signedQuantity, Ledger.signedHedged]
    ring
  refine ⟨kept.residual, kept.small, ?_⟩
  rw [StoreState.netUnhedged, owed, StoreState.roundingResidual, kept.residual]
  ring

/-- Over every sequence of calls the books balance, each source fill key counts once, and
each hedge fill key counts once as long as no delivery was dropped. -/
theorem custody_conserved {digest : String → String} {l : Ledger} (h : Traded digest l) :
    Balanced l ∧ SourceCounted l ∧ (l.dropped = [] → HedgeCounted l) := by
  have kept := traded_kept h
  exact ⟨kept_balanced kept, kept.sourceCounted, kept.hedgeCounted⟩

def Ledger.run (digest : String → String) (l : Ledger) (ops : List StoreOp) : Ledger :=
  ops.foldl (Ledger.call digest) l

def Ledger.Admits (digest : String → String) : Ledger → List StoreOp → Prop
  | _, [] => True
  | l, op :: ops => op.Admissible digest l.memory ∧ (l.call digest op).Admits digest ops

instance Ledger.decidableAdmits (digest : String → String) :
    ∀ (ops : List StoreOp) (l : Ledger), Decidable (l.Admits digest ops)
  | [], _ => isTrue trivial
  | op :: ops, l =>
    have := Ledger.decidableAdmits digest ops (l.call digest op)
    inferInstanceAs (Decidable (op.Admissible digest l.memory ∧ _))

theorem Traded.run {digest : String → String} {l : Ledger} (h : Traded digest l)
    {ops : List StoreOp} (admits : l.Admits digest ops) : Traded digest (l.run digest ops) := by
  induction ops generalizing l with
  | nil => exact h
  | cons op ops ih => exact ih (.call h admits.1) admits.2

theorem custody_completed_leg :
    let l := Ledger.empty.run (fun _ => "d31eeeaaf150156a8ad133b4") completedLeg
    Balanced l ∧ SourceCounted l ∧ HedgeCounted l := by
  have traded : Traded (fun _ => "d31eeeaaf150156a8ad133b4")
      (Ledger.empty.run (fun _ => "d31eeeaaf150156a8ad133b4") completedLeg) :=
    Traded.start.run (by decide +kernel)
  obtain ⟨balanced, source, hedge⟩ := custody_conserved traded
  exact ⟨balanced, source, hedge (by decide +kernel)⟩

/-- A second fill of a completed leg's order is recorded nowhere. -/
theorem late_fill_uncounted : ∃ l, Traded (fun _ => "d31eeeaaf150156a8ad133b4") l ∧
    ¬HedgeCounted l := by
  let l := Ledger.empty.run (fun _ => "d31eeeaaf150156a8ad133b4")
    (completedLeg ++ [.applyHedgeFill ⟨"H-1", "D-2", 1⟩])
  refine ⟨l, Traded.start.run (by decide +kernel), fun counted => ?_⟩
  have differs : (l.memory.hedgeIntents.get? "hedge-d31eeeaaf150156a8ad133b4").any fun intent =>
      intent.hedgeFilledOunces ≠ countedOnce HedgeFill.fillKey HedgeFill.fillOunces
        (·.clientOrderId ∈ intent.hedgeOrderIds) l.hedge := by decide +kernel
  obtain ⟨intent, found, unequal⟩ := (Option.any_eq_true _ _).1 differs
  exact of_decide_eq_true unequal (counted _ intent found)

end ArbNautilus.Store
