import ArbNautilus.Store.Effects

namespace ArbNautilus.Store

open Base

/-- A standalone store: its memory, and the file a restart reads. -/
structure JsonStateStore where
  memory : StoreState
  file : StoreState

def JsonStateStore.empty : JsonStateStore := ⟨.emptyState, .emptyState⟩

def Change.discard {σ α : Type} : Change σ α → Change σ Unit
  | .raises e => .raises e
  | .keeps _ => .keeps ()
  | .publishes t _ => .publishes t ()
  | .reserves t _ => .reserves t ()

@[simp] theorem Change.discard_yields {σ α : Type} (c : Change σ α) (t : σ) :
    c.discard.Yields t ↔ c.Yields t := by
  cases c <;> simp [discard]

/-- Carry a call's change through `_persist`. -/
def JsonStateStore.commit {α : Type} (store : JsonStateStore) (pub : Publication) :
    Change StoreState α → Except Raised α × JsonStateStore
  | .raises e => (.error e, store)
  | .keeps a => (.ok a, store)
  | .publishes t a => match pub with
    | .published => (.ok a, ⟨t, t⟩)
    | .failed => (.error .osError, { store with memory := t })
    | .parentSyncFailed => (.error .parentDirectorySyncError, ⟨t, t⟩)
  | .reserves t a => match pub with
    | .published => (.ok a, ⟨t, t⟩)
    | .failed => (.error .osError, store)
    | .parentSyncFailed => (.error .parentDirectorySyncError, ⟨t, t⟩)

theorem JsonStateStore.commit_cases {α : Type} (store : JsonStateStore) (pub : Publication)
    (c : Change StoreState α) :
    (store.commit pub c).2 = store ∨ ∃ t, c.Yields t ∧
      ((store.commit pub c).2 = ⟨t, t⟩ ∨ (store.commit pub c).2 = { store with memory := t }) := by
  cases c with
  | raises => exact .inl rfl
  | keeps => exact .inl rfl
  | publishes t a =>
    refine .inr ⟨t, .publishes t a, ?_⟩
    cases pub
    · exact .inl rfl
    · exact .inr rfl
    · exact .inl rfl
  | reserves t a =>
    cases pub
    · exact .inr ⟨t, .reserves t a, .inl rfl⟩
    · exact .inl rfl
    · exact .inr ⟨t, .reserves t a, .inl rfl⟩

theorem JsonStateStore.commit_published {α : Type} (store : JsonStateStore)
    (c : Change StoreState α) :
    (∃ t, c.Yields t ∧ (store.commit .published c).2 = ⟨t, t⟩) ∨
      ((∀ t, ¬c.Yields t) ∧ (store.commit .published c).2 = store) := by
  cases c with
  | raises => exact .inr ⟨by simp, rfl⟩
  | keeps => exact .inr ⟨by simp, rfl⟩
  | publishes t a => exact .inl ⟨t, .publishes t a, rfl⟩
  | reserves t a => exact .inl ⟨t, .reserves t a, rfl⟩

namespace StoreState

/-- The HOLD a projection leaves beside the facts it appends. -/
def hold (s : StoreState) (reason : String) : StoreState :=
  { s with
    haltReason := some (s.haltReason.getD reason)
    sourceFreezeReason := some (s.sourceFreezeReason.getD reason) }

/-- The business change of `project_source_fills`; its native checks only restrict the fills. -/
def projectSourceFills (digest : String → String) (s : StoreState) (reason : String)
    (fills : List SourceFill) : Change StoreState Unit :=
  match fills.foldlM (fun t fill => Prod.fst <$> applySourceFill digest t fill (some reason))
      (s.hold reason) with
  | .error e => .raises e
  | .ok t => .reserves t ()

def projectHedgeFills (s : StoreState) (reason : String) (fills : List HedgeFill) :
    Change StoreState Unit :=
  match fills.foldlM (fun t fill => Prod.fst <$> applyFill t fill (some reason))
      (s.hold reason) with
  | .error e => .raises e
  | .ok t => .reserves t ()

/-- Startup archives a reviewed rejection and releases its leg. -/
def archiveRejected (target : Option String) (intent : HedgeIntent) : Except Raised HedgeIntent :=
  match target with
  | none => .ok intent
  | some order =>
    if order ∈ intent.hedgeOrderIds ∧ intent.rejectedAttempt = none then do
      raiseIf (intent.hedgePlan = [] ∨ intent.hedgeClientOrderId ≠ some order ∨
          intent.hedgeLegFilledOunces ≠ 0)
        (.valueError "reviewed hedge is not a qualified zero-fill rejection")
      let fields : RejectedFields := ⟨order, intent.hedgeLegIndex⟩
      if valid : fields.postInit = .ok () then
        IntentFields.make { intent.toIntentFields with
          rejectedAttempt := some ⟨fields, valid⟩
          hedgeClientOrderId := none
          status := .pending }
      else .error (.valueError "rejected hedge attempt requires a non-empty order ID")
    else .ok intent

/-- Startup settles an intent whose legs the native history proves. -/
def settleIntent (target : Option String) (intent : HedgeIntent) :
    Except Raised HedgeIntent := do
  let intent ← archiveRejected target intent
  let status : ObligationStatus :=
    if intent.hedgeFilledOunces = intent.hedgeQuantityOunces then .completed else .pending
  if intent.hedgePlan ≠ [] then
    IntentFields.make { intent.toIntentFields with
      status
      hedgeClientOrderId := none
      hedgeLegIndex := intent.hedgeLegOrderIds.length
      hedgeLegFilledOunces := 0 }
  else IntentFields.make { intent.toIntentFields with status }

/-- The business change of `_settle_completed` on a standalone store; `native` gives the
terminal status of each source order. -/
def settleCompleted (s : StoreState) (target : Option String) (native : String → String) :
    Change StoreState Unit :=
  match mapIntents (settleIntent target) s s.hedgeIntents.values with
  | .error e => .raises e
  | .ok t => .reserves { t with
      sourceOrders := s.sourceOrders.keys.foldl (fun orders key =>
        match orders.get? key with
        | none => orders
        | some record => orders.set key { record with status := native key }) s.sourceOrders
      activeSourceOrderId := none
      haltReason := none
      sourceFreezeReason := none } ()

end StoreState

inductive StoreOp where
  | freezeSourceSubmissions (reason : String)
  | clearSourceFreeze
  | recoverForStart
  | beginSource (request : SourceRequest)
  | updateSourceStatus (clientOrderId status : String)
  | confirmSourceReconciled (clientOrderId : String)
  | markSourceUnknown (clientOrderId reason : String)
  | reserveSourceFill (fill : SourceFill)
  | bindHedgeOrder (intentId clientOrderId : String)
  | bindHedgePlan (intentId : String) (plan : List HedgeLeg)
  | blockHedgeIntent (intentId reason : String)
  | updateHedgeStatus (clientOrderId : String) (status : ObligationStatus)
      (nativeStatus : Option String)
  | applyHedgeFill (fill : HedgeFill)
  | projectSourceFills (reason : String) (fills : List SourceFill)
  | projectHedgeFills (reason : String) (fills : List HedgeFill)
  | settleCompleted (target : Option String) (native : String → String)

def StoreOp.change (digest : String → String) (s : StoreState) : StoreOp → Change StoreState Unit
  | .freezeSourceSubmissions reason => s.freezeSourceSubmissions reason
  | .clearSourceFreeze => s.clearSourceFreeze s.sourceBalanceIsAdmissible
  | .recoverForStart => s.recoverForStart.discard
  | .beginSource request => s.beginSource s.sourceBalanceIsAdmissible request
  | .updateSourceStatus clientOrderId status => s.updateSourceStatus clientOrderId status
  | .confirmSourceReconciled clientOrderId => s.confirmSourceReconciled clientOrderId
  | .markSourceUnknown clientOrderId reason => s.markSourceUnknown clientOrderId reason
  | .reserveSourceFill fill => (s.reserveSourceFill digest fill).discard
  | .bindHedgeOrder intentId clientOrderId => s.bindHedgeOrder intentId clientOrderId
  | .bindHedgePlan intentId plan => (s.bindHedgePlan intentId plan).discard
  | .blockHedgeIntent intentId reason => s.blockHedgeIntent intentId reason
  | .updateHedgeStatus clientOrderId status nativeStatus =>
    s.updateHedgeStatus clientOrderId status nativeStatus
  | .applyHedgeFill fill => (s.applyHedgeFill fill).discard
  | .projectSourceFills reason fills => s.projectSourceFills digest reason fills
  | .projectHedgeFills reason fills => s.projectHedgeFills reason fills
  | .settleCompleted target native => s.settleCompleted target native

inductive Step (digest : String → String) : JsonStateStore → JsonStateStore → Prop where
  | call (store : JsonStateStore) (op : StoreOp) (pub : Publication) :
      Step digest store (store.commit pub (op.change digest store.memory)).2
  | restart (store : JsonStateStore) : Step digest store ⟨store.file, store.file⟩

inductive Reachable (digest : String → String) : JsonStateStore → Prop where
  | start : Reachable digest .empty
  | next {s t : JsonStateStore} : Reachable digest s → Step digest s t → Reachable digest t

/-- Calls made one after another, each publication succeeding. -/
def JsonStateStore.run (digest : String → String) (store : JsonStateStore)
    (ops : List StoreOp) : JsonStateStore :=
  ops.foldl (fun store op => (store.commit .published (op.change digest store.memory)).2) store

theorem Reachable.run {digest : String → String} {store : JsonStateStore}
    (h : Reachable digest store) (ops : List StoreOp) :
    Reachable digest (store.run digest ops) := by
  induction ops generalizing store with
  | nil => exact h
  | cons op ops ih => exact ih (.next h (.call store op .published))

/-- What every call's change preserves holds of memory and file in every reachable store. -/
theorem Reachable.invariant {digest : String → String} {P : StoreState → Prop}
    (start : P .emptyState)
    (step : ∀ s op t, P s → (StoreOp.change digest s op).Yields t → P t)
    {store : JsonStateStore} (h : Reachable digest store) : P store.memory ∧ P store.file := by
  induction h with
  | start => exact ⟨start, start⟩
  | @next store _ _ move ih =>
    cases move with
    | call op pub =>
      obtain same | ⟨t, yields, saved | kept⟩ :=
        store.commit_cases pub (op.change digest store.memory)
      · rw [same]; exact ih
      · have next := step _ _ _ ih.1 yields
        rw [saved]; exact ⟨next, next⟩
      · rw [kept]; exact ⟨step _ _ _ ih.1 yields, ih.2⟩
    | restart => exact ⟨ih.2, ih.2⟩

end ArbNautilus.Store
