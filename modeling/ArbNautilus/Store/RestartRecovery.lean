import ArbNautilus.Base.Traverse
import ArbNautilus.Store.HedgeProjection

/-! `_settle_completed`: startup finalizes what the native orders prove. -/

namespace ArbNautilus.Store

open Base Native

/-- `can_submit_source` of a view. -/
def BusinessStore.canSubmitSource : BusinessStore → ViewKey → Bool
  | .standalone store, _ => store.memory.canSubmitSource store.memory.sourceBalanceIsAdmissible
  | .owner o _, v => (o.view v).canSubmitSource (o.cfg.viewIsAdmissible o.book v)

namespace RestartRecovery

/-- A text that is not empty. -/
abbrev Reason : Type := { text : String // text ≠ "" }

/-- What startup saw of a store before it ran, and the rejection an operator reviewed. -/
structure StartupReceipt where
  eligible : Bool
  halts : Dict ViewKey String
  freezes : Dict ViewKey Reason
  publicationFailed : Bool
  makerCycleFreeze : Bool
  rejectedHedgeOrderId : Option String
  reviewRevoked : Bool
  retryDeadline : Option ℚ
deriving DecidableEq

namespace StartupReceipt

variable (receipt : StartupReceipt)

def freeze (v : ViewKey) : Option String := (receipt.freezes.get? v).map Subtype.val

def checkOwner : BusinessStore → Except Raised Unit
  | .standalone _ => pure ()
  | .owner o _ => do
    raiseIf o.freezePublicationFailed
      (.runtimeError "startup receipt invalid after Maker freeze publication failure")
    raiseIf (receipt.eligible ∧ o.book.cycleFreezeOnly ≠ receipt.makerCycleFreeze)
      (.valueError "Maker cycle freeze is no longer owned by this startup receipt")

/-- The receipt of this store still stands. -/
def check (store : BusinessStore) : Except Raised Unit := do
  raiseIf receipt.publicationFailed
    (.runtimeError "startup receipt invalid after publication sync failure")
  raiseIf receipt.reviewRevoked
    (.runtimeError "startup review revoked by a new pause or failure")
  receipt.checkOwner store
  raiseIf (receipt.eligible ∧ ∃ v ∈ store.viewKeys,
      (store.view v).haltReason ≠ receipt.halts.get? v ∨
        (store.view v).sourceFreezeReason ≠ receipt.freeze v)
    (.valueError "startup pause is not owned by this startup receipt")

/-- The freeze of the views while a hedge is pending; a standalone store has none. -/
def cycleReason (store : BusinessStore) (pending : Bool) : Option Reason :=
  match store with
  | .standalone _ => none
  | .owner _ _ =>
    if pending then
      some (receipt.freezes.values.head?.getD
        ⟨"verified pending Maker hedge obligations", by decide⟩)
    else none

end StartupReceipt

section Settle

variable (receipt : StartupReceipt) (sources hedges : Dict String Order)
  (resumeUnbound rejectedRetryReady : Bool) (now : ℚ)

/-- The native order was rejected without a fill. -/
def ZeroFill (cid : String) : Prop :=
  ∃ order ∈ hedges.get? cid, order.status = .rejected ∧ order.filledQty = 0 ∧
    order.tradeIds = [] ∧ order.fills = []

instance (cid : String) : Decidable (ZeroFill hedges cid) :=
  inferInstanceAs (Decidable (∃ order ∈ hedges.get? cid, _))

def checkTarget (store : BusinessStore) : Except Raised Unit :=
  raiseIf (∃ target ∈ receipt.rejectedHedgeOrderId,
      ((store.viewKeys.flatMap fun v => (store.view v).hedgeIntents.values).filter
        fun intent => target ∈ intent.hedgeOrderIds).length ≠ 1)
    (.valueError "reviewed rejected order does not identify exactly one obligation")

def checkSource (record : SourceOrderRecord) : Except Raised Unit :=
  match sources.get? record.clientOrderId with
  | none => .error (.keyError record.clientOrderId)
  | some order => raiseIf (order.isClosed = false ∨ record.filledOunces ≠ order.filledQty)
    (.valueError "startup source facts are not fully terminal")

/-- The reviewed order of an intent, before it is archived. -/
def checkReview (intent : HedgeIntent) : Except Raised Unit := do
  raiseIf (∃ target ∈ receipt.rejectedHedgeOrderId, target ∈ intent.hedgeOrderIds ∧
      intent.rejectedAttempt = none ∧ (resumeUnbound = false ∨ rejectedRetryReady = false ∨
        receipt.retryDeadline = none ∨ (∃ deadline ∈ receipt.retryDeadline, deadline < now) ∨
        intent.hedgePlan = [] ∨ intent.hedgeClientOrderId ≠ some target ∨
        intent.hedgeLegFilledOunces ≠ 0 ∨ ¬ZeroFill hedges target))
    (.valueError "reviewed hedge is not a qualified zero-fill rejection")
  raiseIf (∃ target ∈ receipt.rejectedHedgeOrderId, target ∈ intent.hedgeOrderIds ∧
      ∃ attempt ∈ intent.rejectedAttempt, attempt.clientOrderId ≠ target)
    (.valueError "hedge obligation already consumed its one rejected retry")

/-- The orders of an intent's legs; a schema-1 intent names its only one once. -/
def legOrders (intent : HedgeIntent) : List String :=
  if intent.hedgePlan = [] ∧ intent.hedgeLegOrderIds = [] then
    (intent.hedgeClientOrderId.filter (· ≠ "")).toList
  else intent.hedgeLegOrderIds

/-- What native orders filled. -/
def filledBy (cids : List String) : ℚ :=
  (cids.map fun cid => ((hedges.get? cid).map (·.filledQty)).getD 0).sum

/-- The native history of an intent's legs. -/
def checkHistory (intent : HedgeIntent) : Except Raised Unit := do
  raiseIf (∃ attempt ∈ intent.rejectedAttempt, ¬ZeroFill hedges attempt.clientOrderId)
    (.valueError "archived rejected hedge has contradictory execution facts")
  let ids := legOrders intent
  raiseIf (∃ cid ∈ ids, (hedges.get? cid).map (·.status) ≠ some .filled)
    (.valueError "startup hedge still has an incomplete or unbound leg")
  if resumeUnbound ∧ intent.hedgePlan ≠ [] then
    raiseIf (intent.hedgePlan.length < ids.length ∨
        ids.length ≠ intent.hedgeLegIndex + intent.hedgeClientOrderId.toList.length ∨
        (intent.hedgeClientOrderId ≠ none ∧ intent.hedgeClientOrderId ≠ ids.getLast?) ∨
        intent.hedgeFilledOunces ≠ planQuantity (intent.hedgePlan.take ids.length) ∨
        intent.hedgeFilledOunces ≠ filledBy hedges ids)
      (.valueError "startup hedge completed prefix differs from its plan")
  else
    raiseIf (¬(resumeUnbound ∧ ids = [] ∧ intent.hedgeFilledOunces = 0) ∧
        (intent.hedgeFilledOunces ≠ intent.hedgeQuantityOunces ∨
          ids.length ≠ if intent.hedgePlan ≠ [] then intent.hedgePlan.length else 1))
      (.valueError "startup hedge still has an incomplete or unbound leg")

/-- An intent as the candidate has it: a reviewed rejection archived, and its legs settled. -/
def settledIntent (intent : HedgeIntent) : Except Raised HedgeIntent := do
  checkReview receipt hedges resumeUnbound rejectedRetryReady now intent
  let intent ← StoreState.archiveRejected receipt.rejectedHedgeOrderId intent
  checkHistory hedges resumeUnbound intent
  StoreState.settleIntent none intent

def viewCandidates (store : BusinessStore) (candidates : Dict String HedgeIntent) (v : ViewKey) :
    Except Raised (Dict String HedgeIntent) := do
  (store.view v).sourceOrders.values.forM (checkSource sources)
  (store.view v).hedgeIntents.values.foldlM (fun candidates intent =>
    candidates.set intent.intentId <$>
      settledIntent receipt hedges resumeUnbound rejectedRetryReady now intent) candidates

def candidatesOf (store : BusinessStore) : Except Raised (Dict String HedgeIntent) := do
  receipt.check store
  raiseIf (receipt.eligible = false)
    (.valueError "startup receipt does not authorize business settlement")
  checkTarget receipt store
  store.viewKeys.foldlM
    (viewCandidates receipt sources hedges resumeUnbound rejectedRetryReady now store) .empty

def nativeStatus (cid : String) (record : SourceOrderRecord) : Except Raised SourceOrderRecord :=
  match sources.get? cid with
  | none => .error (.keyError cid)
  | some order => .ok { record with status := order.status.name }

def candidateOf (candidates : Dict String HedgeIntent) (identity : String) :
    Except Raised HedgeIntent :=
  match candidates.get? identity with
  | none => .error (.keyError identity)
  | some intent => .ok intent

def settledView (candidates : Dict String HedgeIntent) (freeze : Option Reason) (s : StoreState) :
    Except Raised StoreState := do
  let sourceOrders ← s.sourceOrders.traverse (nativeStatus sources)
  let hedgeIntents ← s.hedgeIntents.traverse fun identity _ => candidateOf candidates identity
  pure { s with
    sourceOrders
    activeSourceOrderId := none
    hedgeIntents
    haltReason := none
    sourceFreezeReason := freeze.map Subtype.val }

def residualError : Raised :=
  .valueError "startup settled candidate has inadmissible business residuals"

/-- The candidate of a standalone store. -/
def settledState (candidates : Dict String HedgeIntent) (pending : Bool) (freeze : Option Reason)
    (s : StoreState) : Except Raised StoreState := do
  let t ← settledView sources candidates freeze s
  raiseIf ((pending ∧ t.roundingResidual ≠ 0) ∨
      (pending = false ∧ (t.canSubmitSource t.sourceBalanceIsAdmissible = false ∨
        t.cycleEvidenceComplete t.sourceBalanceIsAdmissible = false)))
    residualError
  pure t

/-- The candidate of an owner. -/
def settledBook (candidates : Dict String HedgeIntent) (pending : Bool) (freeze : Option Reason)
    (o : MakerStateStore) : Except Raised Book := do
  let views ← o.cfg.viewKeys.foldlM (fun b v =>
    b.setView v <$> settledView sources candidates freeze (o.view v)) o.book
  let b := { views with cycleFreezeOnly := pending }
  o.cfg.validate b
  raiseIf ((pending ∧ ¬(o.cfg.sourceBalanceIsAdmissible b ∧
        ∃ selected ∈ o.cfg.firstUnfinishedHedge b, selected.2.status = .pending ∧
          selected.2.hedgeClientOrderId = none)) ∨
      (pending = false ∧ ∃ v ∈ o.cfg.viewKeys,
        (b.views v).canSubmitSource (o.cfg.viewIsAdmissible b v) = false ∨
          (b.views v).cycleEvidenceComplete (o.cfg.viewIsAdmissible b v) = false))
    residualError
  pure b

/-- The candidate is already what the owner holds. -/
def Unchanged (o : MakerStateStore) (b : Book) : Prop :=
  (∀ v ∈ o.cfg.viewKeys, b.views v = o.view v) ∧ b.cycleFreezeOnly = o.book.cycleFreezeOnly

instance (o : MakerStateStore) (b : Book) : Decidable (Unchanged o b) :=
  inferInstanceAs (Decidable (_ ∧ _))

/-- Publish the candidate, where it differs. -/
def publish (candidates : Dict String HedgeIntent) (pending : Bool) (freeze : Option Reason)
    (pub : Publication) : BusinessStore → Except Raised Unit × BusinessStore
  | .standalone store => match settledState sources candidates pending freeze store.memory with
    | .error e => (.error e, .standalone store)
    | .ok t =>
      if t = store.memory then (.ok (), .standalone store)
      else
        let (result, store') := store.commit pub (.reserves t ())
        (result, .standalone store')
  | .owner o instruments => match settledBook sources candidates pending freeze o with
    | .error e => (.error e, .owner o instruments)
    | .ok b =>
      if Unchanged o b then (.ok (), .owner o instruments)
      else
        let (result, o') := o.transact pub (.ok (o.setBook b))
        (result, .owner o' instruments)

/-- The receipt after the store was settled. -/
def settledReceipt (store : BusinessStore) (freeze : Option Reason) : StartupReceipt :=
  { receipt with
    halts := .empty
    freezes := match freeze with
      | none => .empty
      | some reason => .ofList (store.viewKeys.map fun v => (v, reason))
    makerCycleFreeze := freeze.isSome }

def hasPending (candidates : Dict String HedgeIntent) : Bool :=
  candidates.values.any (·.status = .pending)

/-- `_settle_completed`. -/
def settleCompleted (store : BusinessStore) (sourceOrders hedgeOrders : List Order)
    (pub : Publication) : Except Raised Unit × BusinessStore × StartupReceipt :=
  let sources := byId sourceOrders
  let hedges := byId hedgeOrders
  match candidatesOf receipt sources hedges resumeUnbound rejectedRetryReady now store with
  | .error e => (.error e, store, receipt)
  | .ok candidates =>
    let freeze := receipt.cycleReason store (hasPending candidates)
    match publish sources candidates (hasPending candidates) freeze pub store with
    | (.ok (), store') => (.ok (), store', settledReceipt receipt store freeze)
    | (.error e, store') => (.error e, store',
        if e = .parentDirectorySyncError then { receipt with publicationFailed := true }
        else receipt)

end Settle

end RestartRecovery

end ArbNautilus.Store
