import ArbNautilus.Store.Validate

namespace ArbNautilus.Store

open Base

/-- One allocation owner over its Maker views and, when shared, a Taker view. `committed` is
also the content of its file. -/
structure MakerStateStore where
  cfg : OwnerConfig
  book : Book
  committed : Book
  freezePublicationFailed : Bool

namespace MakerStateStore

def view (o : MakerStateStore) (v : ViewKey) : StoreState := o.book.views v

def setView (o : MakerStateStore) (v : ViewKey) (s : StoreState) : MakerStateStore :=
  { o with book := o.book.setView v s }

def setBook (o : MakerStateStore) (b : Book) : MakerStateStore := { o with book := b }

/-- A revoked release is never republished. -/
def candidate (o : MakerStateStore) : MakerStateStore :=
  if o.freezePublicationFailed then
    { o with book := { o.book with cycleFreezeOnly := false } }
  else o

def persist (o : MakerStateStore) (pub : Publication) : Except Raised Unit × MakerStateStore :=
  let o := o.candidate
  match o.cfg.validate o.book with
  | .error e => (.error e, o.setBook o.committed)
  | .ok () => match pub with
    | .published => (.ok (), { o with committed := o.book })
    | .failed => (.error .osError, o.setBook o.committed)
    | .parentSyncFailed => (.error .parentDirectorySyncError,
        { o with committed := o.book, freezePublicationFailed := true })

/-- Carry a view's change through the owner's `_persist`. -/
def commitView {α : Type} (o : MakerStateStore) (v : ViewKey) (pub : Publication) :
    Change StoreState α → Except Raised α × MakerStateStore
  | .raises e => (.error e, o)
  | .keeps a => (.ok a, o)
  | .publishes t a => match (o.setView v t).persist pub with
    | (.ok (), o') => (.ok a, o')
    | (.error e, o') => (.error e, o')
  | .reserves t a => match (o.setView v t).persist pub with
    | (.ok (), o') => (.ok a, o')
    | (.error e, o') =>
      (.error e, if e = .parentDirectorySyncError then o' else o'.setView v (o.view v))

def running (o : MakerStateStore) : Bool :=
  o.cfg.viewKeys.all fun v => (o.view v).haltReason = none

def unfrozen (o : MakerStateStore) : Bool :=
  o.cfg.viewKeys.all fun v => (o.view v).sourceFreezeReason = none

def releasable (o : MakerStateStore) : Bool :=
  o.book.cycleFreezeOnly ∧ ¬o.freezePublicationFailed

def freezeView (s : StoreState) (reason : Option String) : StoreState :=
  { s with sourceFreezeReason := reason }

def setFreezes (o : MakerStateStore) (reason : String) (views : List ViewKey) :
    MakerStateStore :=
  o.setBook { o.book with
    views := fun v =>
      if v ∈ views then
        freezeView (o.view v) (some ((o.view v).sourceFreezeReason.getD reason))
      else o.view v }

/-- `_freeze_external`: a freeze that no completed cycle may release. -/
def freezeExternal (o : MakerStateStore) (pub : Publication) (reason : String)
    (views : List ViewKey) : Except Raised Unit × MakerStateStore :=
  if reason = "" then (.error (.valueError "freeze reason must not be empty"), o)
  else if o.book.cycleFreezeOnly ∨ ∃ v ∈ views, (o.view v).sourceFreezeReason = none then
    let frozen := o.setFreezes reason views
    match (frozen.setBook { frozen.book with cycleFreezeOnly := false }).persist pub with
    | (.ok (), o') => (.ok (), o')
    | (.error e, o') => (.error e, { o' with freezePublicationFailed := true })
  else (.ok (), o)

def freezeReasons (o : MakerStateStore) : Finset String :=
  (o.cfg.viewKeys.filterMap fun v => (o.view v).sourceFreezeReason).toFinset

def clearSourceFreezes (o : MakerStateStore) (pub : Publication) :
    Except Raised Bool × MakerStateStore :=
  if o.freezePublicationFailed ∨ o.cfg.sourceBalanceIsAdmissible o.book = false ∨
      o.freezeReasons.card ≠ 1 ∨ ∃ v ∈ o.cfg.viewKeys,
        (o.view v).cycleEvidenceComplete (o.cfg.viewIsAdmissible o.book v) = false then
    (.ok false, o)
  else
    match (o.setBook { o.book with
        views := fun v => freezeView (o.view v) none
        cycleFreezeOnly := false }).persist pub with
    | (.ok (), o') => (.ok true, o')
    | (.error e, o') => (.error e, o')

/-- A view's `_reserve_source_fill`: the owner allocates. -/
def applySourceFill (digest : String → String) (o : MakerStateStore) (v : ViewKey)
    (fill : SourceFill) (blockedReason : Option String) :
    Except Raised (MakerStateStore × Option HedgeIntent) :=
  if fill.fillKey ∈ (o.view v).seenSourceFills then .ok (o, none)
  else match (o.view v).sourceOrders.get? fill.clientOrderId with
    | none => .ok (o, none)
    | some record => do
      let recorded ← (o.view v).recordSourceFill record fill blockedReason
      let (book, rounded) := o.cfg.allocate (o.book.setView v recorded) record fill.fillKey
        fill.signedFill
      let (opened, intent) ← (book.views v).openHedgeIntent digest record fill blockedReason rounded
      pure (o.setBook (book.setView v opened), intent)

def fillFreezeReason (fill : SourceFill) : String :=
  "Maker fill " ++ fill.clientOrderId ++ "/" ++ fill.tradeId ++
    " requires authoritative two-sided reconciliation"

/-- The holds a source fill leaves on every view before it is allocated. -/
def freezeForFill (o : MakerStateStore) (fill : SourceFill) : MakerStateStore :=
  let only := o.freezePublicationFailed = false ∧ o.running ∧ (o.releasable ∨ o.unfrozen)
  (o.setBook { o.book with cycleFreezeOnly := o.book.cycleFreezeOnly ∨ only }).setFreezes
    (fillFreezeReason fill) o.cfg.viewKeys

def reserveSourceFill (digest : String → String) (o : MakerStateStore) (v : ViewKey)
    (pub : Publication) (fill : SourceFill) :
    Except Raised (Option HedgeIntent) × MakerStateStore :=
  if fill.fillKey ∈ (o.view v).seenSourceFills ∨
      ¬(o.view v).knowsSourceOrder fill.clientOrderId then (.ok none, o)
  else match (o.freezeForFill fill).applySourceFill digest v fill none with
    | .error e => (.error e, o)
    | .ok (filled, intent) => match filled.persist pub with
      | (.ok (), o') => (.ok intent, o')
      | (.error e, o') =>
        (.error e, if e = .parentDirectorySyncError then o' else o'.setBook o.book)

def clearSourceFreeze (o : MakerStateStore) (pub : Publication) :
    Except Raised Unit × MakerStateStore :=
  match o.clearSourceFreezes pub with
  | (.error e, o') => (.error e, o')
  | (.ok cleared, o') =>
    if cleared = false ∧ o'.unfrozen = false then
      (.error (.runtimeError "Maker cycle evidence is incomplete"), o')
    else (.ok (), o')

/-- A call on one view. A projection takes the whole owner, never a view. -/
def callView (digest : String → String) (o : MakerStateStore) (v : ViewKey) (pub : Publication) :
    StoreOp → Except Raised Unit × MakerStateStore
  | .freezeSourceSubmissions reason => o.freezeExternal pub reason [v]
  | .clearSourceFreeze => o.clearSourceFreeze pub
  | .recoverForStart => o.commitView v pub (o.view v).recoverForStart.discard
  | .beginSource request =>
    o.commitView v pub ((o.view v).beginSource (o.cfg.viewIsAdmissible o.book v) request)
  | .updateSourceStatus clientOrderId status =>
    o.commitView v pub ((o.view v).updateSourceStatus clientOrderId status)
  | .confirmSourceReconciled clientOrderId =>
    o.commitView v pub ((o.view v).confirmSourceReconciled clientOrderId)
  | .markSourceUnknown clientOrderId reason =>
    o.commitView v pub ((o.view v).markSourceUnknown clientOrderId reason)
  | .reserveSourceFill fill => match o.reserveSourceFill digest v pub fill with
    | (.ok _, o') => (.ok (), o')
    | (.error e, o') => (.error e, o')
  | .bindHedgeOrder intentId clientOrderId =>
    o.commitView v pub ((o.view v).bindHedgeOrder intentId clientOrderId)
  | .bindHedgePlan intentId plan =>
    o.commitView v pub ((o.view v).bindHedgePlan intentId plan).discard
  | .blockHedgeIntent intentId reason =>
    o.commitView v pub ((o.view v).blockHedgeIntent intentId reason)
  | .updateHedgeStatus clientOrderId status nativeStatus =>
    o.commitView v pub ((o.view v).updateHedgeStatus clientOrderId status nativeStatus)
  | .applyHedgeFill fill => o.commitView v pub ((o.view v).applyHedgeFill fill).discard
  | .projectSourceFills _ _ => (.error (.typeError
      "source projection requires the whole Maker owner or a JsonStateStore"), o)
  | .projectHedgeFills _ _ => (.error (.typeError
      "hedge projection requires the whole Maker owner or a JsonStateStore"), o)
  | .settleCompleted _ _ => (.ok (), o)

end MakerStateStore

/-- One step of an owner: a call on one of its views, its own freeze, or a restart. -/
inductive OwnerStep (digest : String → String) : MakerStateStore → MakerStateStore → Prop where
  | call (o : MakerStateStore) {v : ViewKey} (op : StoreOp) (pub : Publication)
      (known : v ∈ o.cfg.viewKeys) : OwnerStep digest o (o.callView digest v pub op).2
  | freeze (o : MakerStateStore) (reason : String) (pub : Publication) :
      OwnerStep digest o (o.freezeExternal pub reason o.cfg.viewKeys).2
  | restart (o : MakerStateStore) :
      OwnerStep digest o ⟨o.cfg, o.committed, o.committed, false⟩

/-- An owner as `__init__` leaves it: empty or loaded, and valid. -/
inductive OwnerReachable (digest : String → String) : MakerStateStore → Prop where
  | start {cfg : OwnerConfig} {b : Book} (valid : cfg.validate b = .ok ()) :
      OwnerReachable digest ⟨cfg, b, b, false⟩
  | next {o o' : MakerStateStore} : OwnerReachable digest o → OwnerStep digest o o' →
      OwnerReachable digest o'

/-- The memory is the committed book, and it is valid. -/
structure Settled (o : MakerStateStore) : Prop where
  same : o.book = o.committed
  valid : o.cfg.validate o.committed = .ok ()

namespace MakerStateStore

theorem candidate_committed (o : MakerStateStore) :
    o.candidate.committed = o.committed ∧ o.candidate.cfg = o.cfg := by
  unfold candidate
  split <;> exact ⟨rfl, rfl⟩

theorem persist_settled {o : MakerStateStore} (valid : o.cfg.validate o.committed = .ok ())
    (pub : Publication) : Settled (o.persist pub).2 ∧ (o.persist pub).2.cfg = o.cfg := by
  obtain ⟨committed, cfg⟩ := o.candidate_committed
  have kept : Settled (o.candidate.setBook o.candidate.committed) :=
    ⟨rfl, by simpa only [setBook, committed, cfg] using valid⟩
  unfold persist
  dsimp only
  split
  · exact ⟨kept, cfg⟩
  · rename_i checked
    cases pub
    · exact ⟨⟨rfl, checked⟩, cfg⟩
    · exact ⟨kept, cfg⟩
    · exact ⟨⟨rfl, checked⟩, cfg⟩

/-- A publication that raises for any reason but a directory sync takes the book back. -/
theorem persist_restores {o : MakerStateStore} {pub : Publication} {e : Raised}
    (h : (o.persist pub).1 = .error e) (other : e ≠ .parentDirectorySyncError) :
    (o.persist pub).2.book = o.committed := by
  obtain ⟨committed, -⟩ := o.candidate_committed
  unfold persist at h ⊢
  dsimp only at h ⊢
  split at h
  · rename_i invalid
    simp only [setBook, committed]
  · rename_i checked
    cases pub
    · cases h
    · simp only [setBook, committed]
    · simp only [Except.error.injEq] at h
      exact absurd h.symm other

theorem setView_committed {o o' : MakerStateStore} (same : o.book = o'.book) (v : ViewKey) :
    o'.setView v (o.view v) = o' := by
  simp [setView, view, Book.setView, same]

theorem commitView_settled {α : Type} {o : MakerStateStore} (h : Settled o) (v : ViewKey)
    (pub : Publication) (c : Change StoreState α) :
    Settled (o.commitView v pub c).2 ∧ (o.commitView v pub c).2.cfg = o.cfg := by
  cases c with
  | raises => exact ⟨h, rfl⟩
  | keeps => exact ⟨h, rfl⟩
  | publishes t a =>
    have stored := persist_settled (o := o.setView v t) h.valid pub
    unfold commitView
    dsimp only
    split <;> rename_i result <;> rw [result] at stored <;> exact stored
  | reserves t a =>
    have stored := persist_settled (o := o.setView v t) h.valid pub
    unfold commitView
    dsimp only
    split <;> rename_i result
    · rw [result] at stored; exact stored
    · rename_i e o'
      split
      · rw [result] at stored; exact stored
      · rename_i other
        have taken := persist_restores (congrArg Prod.fst result) other
        rw [result] at stored taken
        rw [setView_committed (h.same.trans taken.symm)]
        exact stored

theorem freezeExternal_settled {o : MakerStateStore} (h : Settled o) (pub : Publication)
    (reason : String) (views : List ViewKey) :
    Settled (o.freezeExternal pub reason views).2 ∧
      (o.freezeExternal pub reason views).2.cfg = o.cfg := by
  unfold freezeExternal
  split
  · exact ⟨h, rfl⟩
  · split
    · have stored := persist_settled (o := (o.setFreezes reason views).setBook
        { (o.setFreezes reason views).book with cycleFreezeOnly := false }) h.valid pub
      dsimp only
      split <;> rename_i result <;> rw [result] at stored
      · exact stored
      · exact ⟨⟨stored.1.same, stored.1.valid⟩, stored.2⟩
    · exact ⟨h, rfl⟩

theorem clearSourceFreezes_settled {o : MakerStateStore} (h : Settled o) (pub : Publication) :
    Settled (o.clearSourceFreezes pub).2 ∧ (o.clearSourceFreezes pub).2.cfg = o.cfg := by
  unfold clearSourceFreezes
  split
  · exact ⟨h, rfl⟩
  · have stored := persist_settled (o := o.setBook { o.book with
        views := fun v => freezeView (o.view v) none
        cycleFreezeOnly := false }) h.valid pub
    split <;> rename_i result <;> rw [result] at stored <;> exact stored

theorem applySourceFill_committed {digest : String → String} {o filled : MakerStateStore}
    {v : ViewKey} {fill : SourceFill} {blockedReason : Option String} {intent : Option HedgeIntent}
    (h : o.applySourceFill digest v fill blockedReason = .ok (filled, intent)) :
    filled.committed = o.committed ∧ filled.cfg = o.cfg := by
  unfold applySourceFill at h
  split at h
  · cases h; exact ⟨rfl, rfl⟩
  · split at h
    · cases h; exact ⟨rfl, rfl⟩
    · simp only [bind_eq_ok, Prod.exists, pure_eq_ok, Prod.mk.injEq] at h
      obtain ⟨_, -, _, _, -, rfl, -⟩ := h
      exact ⟨rfl, rfl⟩

theorem reserveSourceFill_settled {digest : String → String} {o : MakerStateStore}
    (h : Settled o) (v : ViewKey) (pub : Publication) (fill : SourceFill) :
    Settled (o.reserveSourceFill digest v pub fill).2 ∧
      (o.reserveSourceFill digest v pub fill).2.cfg = o.cfg := by
  unfold reserveSourceFill
  split
  · exact ⟨h, rfl⟩
  · split
    · exact ⟨h, rfl⟩
    · rename_i filled intent applied
      obtain ⟨committed, cfg⟩ := applySourceFill_committed applied
      have stored := persist_settled (o := filled) (by rw [committed, cfg]; exact h.valid) pub
      rw [show filled.cfg = o.cfg from cfg] at stored
      split <;> rename_i result
      · rw [result] at stored; exact stored
      · rename_i e o'
        split
        · rw [result] at stored; exact stored
        · rename_i other
          have taken := persist_restores (congrArg Prod.fst result) other
          rw [result] at stored taken
          have same : o.book = o'.book := h.same.trans (committed.symm.trans taken.symm)
          have back : o'.setBook o.book = o' := by rw [same]; rfl
          rw [back]
          exact stored

theorem callView_settled {digest : String → String} {o : MakerStateStore} (h : Settled o)
    (v : ViewKey) (pub : Publication) (op : StoreOp) :
    Settled (o.callView digest v pub op).2 ∧ (o.callView digest v pub op).2.cfg = o.cfg := by
  cases op with
  | freezeSourceSubmissions reason => exact freezeExternal_settled h pub reason [v]
  | clearSourceFreeze =>
    have stored := clearSourceFreezes_settled h pub
    simp only [callView, clearSourceFreeze]
    split <;> rename_i result <;> rw [result] at stored
    · exact stored
    · split <;> exact stored
  | reserveSourceFill fill =>
    have stored : Settled (o.reserveSourceFill digest v pub fill).2 ∧ _ :=
      reserveSourceFill_settled h v pub fill
    simp only [callView]
    split <;> rename_i result <;> rw [result] at stored <;> exact stored
  | projectSourceFills | projectHedgeFills | settleCompleted => exact ⟨h, rfl⟩
  | _ => exact commitView_settled h v pub _

end MakerStateStore

theorem step_settled {digest : String → String} {o o' : MakerStateStore} (h : Settled o)
    (step : OwnerStep digest o o') : Settled o' ∧ o'.cfg = o.cfg := by
  cases step with
  | call op pub known => exact MakerStateStore.callView_settled h _ pub op
  | freeze reason pub => exact MakerStateStore.freezeExternal_settled h pub reason _
  | restart => exact ⟨⟨rfl, h.valid⟩, rfl⟩

/-- Every step of an owner ends on a book that validation accepts. -/
theorem reachable_settled {digest : String → String} {o : MakerStateStore}
    (h : OwnerReachable digest o) : Settled o := by
  induction h with
  | start valid => exact ⟨rfl, valid⟩
  | next _ step ih => exact (step_settled ih step).1

theorem reachable_valid {digest : String → String} {o : MakerStateStore}
    (h : OwnerReachable digest o) : o.cfg.validate o.book = .ok () := by
  have settled := reachable_settled h
  rw [settled.same]
  exact settled.valid

/-- Calls in turn, every publication succeeding. -/
def MakerStateStore.run (digest : String → String) (o : MakerStateStore)
    (calls : List (ViewKey × StoreOp)) : MakerStateStore :=
  calls.foldl (fun o call => (o.callView digest call.1 .published call.2).2) o

theorem OwnerReachable.run {digest : String → String} {o : MakerStateStore}
    (h : OwnerReachable digest o) {calls : List (ViewKey × StoreOp)}
    (known : ∀ call ∈ calls, call.1 ∈ o.cfg.viewKeys) :
    OwnerReachable digest (o.run digest calls) := by
  induction calls generalizing o with
  | nil => exact h
  | cons call calls ih =>
    have same : (o.callView digest call.1 .published call.2).2.cfg = o.cfg :=
      (MakerStateStore.callView_settled (reachable_settled h) call.1 .published call.2).2
    refine ih (h.next (.call o call.2 .published (known call (by simp)))) ?_
    intro other later
    rw [same]
    exact known other (by simp [later])

end ArbNautilus.Store
