import ArbNautilus.Store.Admission
import ArbNautilus.Store.Atomic
import ArbNautilus.Store.Sticky

namespace ArbNautilus.Store

open Base

/-- The state refuses every source by its freeze alone. -/
def StoreState.Frozen (s : StoreState) : Prop := s.sourceFreezeReason ≠ none

instance (s : StoreState) : Decidable s.Frozen := inferInstanceAs (Decidable (_ ≠ _))

/-- A change that leaves the freeze as it found it. -/
def Change.KeepsFreeze {α : Type} (s : StoreState) (c : Change StoreState α) : Prop :=
  ∀ t, c.Yields t → t.sourceFreezeReason = s.sourceFreezeReason

theorem Change.KeepsFreeze.discard {α : Type} {s : StoreState} {c : Change StoreState α}
    (h : c.KeepsFreeze s) : c.discard.KeepsFreeze s := by
  intro t yields
  exact h t ((Change.discard_yields c t).1 yields)

namespace StoreState

variable {s t : StoreState}

/-- The error a frozen store answers a source with. -/
def sourceBlocked : Raised := .runtimeError "source submission blocked by persisted state"

theorem Frozen.beginSource (h : s.Frozen) (admissible : Bool) (r : SourceRequest) :
    s.beginSource admissible r = .raises sourceBlocked := by
  have blocked : s.canSubmitSource admissible = false := by
    rw [canSubmitSource, decide_eq_false_iff_not]
    exact fun admits => h admits.2.1
  have refused : s.checkRequest admissible r = .error sourceBlocked := by
    unfold checkRequest
    rw [raiseIf, if_pos blocked]
    rfl
  unfold StoreState.beginSource
  rw [refused]

theorem recoverForStart_freeze (s : StoreState) : s.recoverForStart.KeepsFreeze s := by
  intro t yields
  obtain ⟨orders, v, halt, -, mapped, rfl⟩ := recoverForStart_yields yields
  obtain ⟨d, rfl⟩ := mapIntents_frame mapped
  rfl

theorem updateSourceStatus_freeze (s : StoreState) (clientOrderId status : String) :
    (s.updateSourceStatus clientOrderId status).KeepsFreeze s := by
  intro t yields
  unfold updateSourceStatus at yields
  split at yields <;> simp at yields
  rw [← yields]

theorem confirmSourceReconciled_freeze (s : StoreState) (clientOrderId : String) :
    (s.confirmSourceReconciled clientOrderId).KeepsFreeze s := by
  intro t yields
  unfold confirmSourceReconciled at yields
  split at yields
  · simp at yields
  · split at yields <;> simp at yields
    rw [← yields, releaseSource]

theorem markSourceUnknown_freeze (s : StoreState) (clientOrderId reason : String) :
    (s.markSourceUnknown clientOrderId reason).KeepsFreeze s := by
  intro t yields
  simp only [markSourceUnknown, Change.yields_publishes] at yields
  rw [← yields]

theorem recordSourceFill_freeze {record : SourceOrderRecord} {fill : SourceFill}
    {blockedReason : Option String} (h : s.recordSourceFill record fill blockedReason = .ok t) :
    t.sourceFreezeReason = s.sourceFreezeReason := by
  simp only [recordSourceFill, bind_unit_eq_ok] at h
  obtain ⟨-, -, h⟩ := h
  split at h <;> simp only [pure_eq_ok] at h <;> rw [← h]
  rfl

theorem openHedgeIntent_freeze {digest : String → String} {record : SourceOrderRecord}
    {fill : SourceFill} {blockedReason : Option String} {rounded : ℤ} {opened : Option HedgeIntent}
    (h : s.openHedgeIntent digest record fill blockedReason rounded = .ok (t, opened)) :
    t.sourceFreezeReason = s.sourceFreezeReason := by
  obtain ⟨-, rfl, -⟩ | ⟨-, intent, -, -, rfl⟩ := openHedgeIntent_eq_ok h
  · rfl
  · rfl

theorem applySourceFill_freeze {digest : String → String} {fill : SourceFill}
    {blockedReason : Option String} {opened : Option HedgeIntent}
    (h : s.applySourceFill digest fill blockedReason = .ok (t, opened)) :
    t.sourceFreezeReason = s.sourceFreezeReason := by
  unfold applySourceFill at h
  split at h
  · cases h
    rfl
  · split at h
    · cases h
      rfl
    · simp only [bind_eq_ok] at h
      obtain ⟨recorded, made, h⟩ := h
      have recorded := recordSourceFill_freeze made
      exact (openHedgeIntent_freeze h).trans recorded

theorem reserveSourceFill_freeze (digest : String → String) (s : StoreState) (fill : SourceFill) :
    (s.reserveSourceFill digest fill).KeepsFreeze s := by
  intro t yields
  unfold reserveSourceFill at yields
  split at yields
  · simp at yields
  · split at yields
    · simp at yields
    · rename_i applied
      rw [Change.yields_reserves] at yields
      exact yields ▸ applySourceFill_freeze applied

theorem bindHedgeOrder_freeze (s : StoreState) (intentId clientOrderId : String) :
    (s.bindHedgeOrder intentId clientOrderId).KeepsFreeze s := by
  intro t yields
  obtain ⟨intent, bound, -, -, -, -, -, -, rfl⟩ := bindHedgeOrder_yields yields
  rfl

theorem bindHedgePlan_freeze (s : StoreState) (intentId : String) (plan : List HedgeLeg) :
    (s.bindHedgePlan intentId plan).KeepsFreeze s := by
  intro t yields
  obtain ⟨intent, planned, -, -, -, -, -, -, -, rfl⟩ := bindHedgePlan_yields yields
  rfl

theorem blockHedgeIntent_freeze (s : StoreState) (intentId reason : String) :
    (s.blockHedgeIntent intentId reason).KeepsFreeze s := by
  intro t yields
  obtain ⟨intent, blocked, -, -, -, rfl⟩ := blockHedgeIntent_yields yields
  rfl

theorem updateHedgeStatus_freeze (s : StoreState) (clientOrderId : String)
    (status : ObligationStatus) (nativeStatus : Option String) :
    (s.updateHedgeStatus clientOrderId status nativeStatus).KeepsFreeze s := by
  intro t yields
  unfold updateHedgeStatus at yields
  split at yields
  · simp at yields
  · split at yields
    · split at yields
      · split at yields
        · simp at yields
        · rename_i held
          obtain ⟨blocked, -, rfl⟩ := holdRejectedAttempt_eq_ok held
          split at yields <;> simp at yields
          exact yields ▸ rfl
      · simp at yields
    · split at yields
      · simp at yields
      · split at yields <;> simp at yields
        exact yields ▸ rfl

theorem applyFill_freeze {fill : HedgeFill} {blockedReason : Option String} {changed : Bool}
    (h : s.applyFill fill blockedReason = .ok (t, changed)) :
    t.sourceFreezeReason = s.sourceFreezeReason := by
  obtain ⟨rfl, -⟩ | ⟨intent, blocked, -, -, -, -, rfl⟩ | ⟨intent, advanced, -, -, -, -, -, -,
    rfl⟩ :=
    applyFill_eq_ok h
  · rfl
  · rfl
  · rfl

theorem applyHedgeFill_freeze (s : StoreState) (fill : HedgeFill) :
    (s.applyHedgeFill fill).KeepsFreeze s := by
  intro t yields
  exact applyFill_freeze (applyHedgeFill_yields yields).2

theorem hold_frozen (s : StoreState) (reason : String) : (s.hold reason).Frozen :=
  Option.some_ne_none _

/-- A projection holds every state it touches. -/
theorem projectSourceFills_frozen (digest : String → String) (reason : String)
    (fills : List SourceFill) (h : (s.projectSourceFills digest reason fills).Yields t) :
    t.Frozen := by
  unfold projectSourceFills at h
  split at h
  · simp at h
  · rename_i applied
    rw [Change.yields_reserves] at h
    subst h
    refine foldlM_invariant (P := Frozen) (fun u fill v kept turn => ?_) (hold_frozen s reason)
      applied
    obtain ⟨⟨v', opened⟩, added, rfl⟩ := map_eq_ok.1 turn
    exact fun free => kept ((applySourceFill_freeze added).symm.trans free)

theorem projectHedgeFills_frozen (reason : String) (fills : List HedgeFill)
    (h : (s.projectHedgeFills reason fills).Yields t) : t.Frozen := by
  unfold projectHedgeFills at h
  split at h
  · simp at h
  · rename_i applied
    rw [Change.yields_reserves] at h
    subst h
    refine foldlM_invariant (P := Frozen) (fun u fill v kept turn => ?_) (hold_frozen s reason)
      applied
    obtain ⟨⟨v', changed⟩, added, rfl⟩ := map_eq_ok.1 turn
    exact fun free => kept ((applyFill_freeze added).symm.trans free)

end StoreState

/-- The calls that may end a freeze: its clearance on complete evidence, and a startup
settlement that is published. -/
def Call.Releases (store : JsonStateStore) (c : Call) : Prop :=
  match c.op with
  | .clearSourceFreeze =>
    store.memory.cycleEvidenceComplete store.memory.sourceBalanceIsAdmissible = true
  | .settleCompleted _ _ => c.pub ≠ .failed
  | _ => False

theorem change_frozen {digest : String → String} {s t : StoreState} {op : StoreOp}
    (frozen : s.Frozen) (h : (op.change digest s).Yields t)
    (clears : op = .clearSourceFreeze →
      ¬s.cycleEvidenceComplete s.sourceBalanceIsAdmissible = true)
    (settles : ∀ target native, op ≠ .settleCompleted target native) : t.Frozen := by
  have kept {c : Change StoreState Unit} (keeps : c.KeepsFreeze s) (yields : c.Yields t) :
      t.Frozen := by
    rw [StoreState.Frozen, keeps t yields]
    exact frozen
  cases op with
  | freezeSourceSubmissions reason =>
    simp only [StoreOp.change, StoreState.freezeSourceSubmissions] at h
    split_ifs at h <;> simp at h
    exact h ▸ Option.some_ne_none _
  | clearSourceFreeze =>
    simp only [StoreOp.change, StoreState.clearSourceFreeze] at h
    rw [if_neg (clears rfl)] at h
    simp at h
  | recoverForStart => exact kept s.recoverForStart_freeze.discard h
  | beginSource request =>
    simp only [StoreOp.change, frozen.beginSource, Change.yields_raises] at h
  | updateSourceStatus => exact kept (s.updateSourceStatus_freeze _ _) h
  | confirmSourceReconciled => exact kept (s.confirmSourceReconciled_freeze _) h
  | markSourceUnknown => exact kept (s.markSourceUnknown_freeze _ _) h
  | reserveSourceFill fill => exact kept (s.reserveSourceFill_freeze digest fill).discard h
  | bindHedgeOrder => exact kept (s.bindHedgeOrder_freeze _ _) h
  | bindHedgePlan => exact kept (s.bindHedgePlan_freeze _ _).discard h
  | blockHedgeIntent => exact kept (s.blockHedgeIntent_freeze _ _) h
  | updateHedgeStatus => exact kept (s.updateHedgeStatus_freeze _ _ _) h
  | applyHedgeFill fill => exact kept (s.applyHedgeFill_freeze fill).discard h
  | projectSourceFills reason fills =>
    exact StoreState.projectSourceFills_frozen digest reason fills h
  | projectHedgeFills reason fills => exact StoreState.projectHedgeFills_frozen reason fills h
  | settleCompleted target native => exact absurd rfl (settles target native)

theorem call_frozen {digest : String → String} {store : JsonStateStore} {c : Call}
    (frozen : store.memory.Frozen) (holds : ¬c.Releases store) :
    (store.call digest c).memory.Frozen := by
  obtain ⟨op, pub⟩ := c
  by_cases settles : ∃ target native, op = .settleCompleted target native
  · obtain ⟨target, native, rfl⟩ := settles
    have failed : pub = .failed := not_not.1 holds
    subst failed
    unfold JsonStateStore.call StoreOp.change StoreState.settleCompleted
    dsimp only
    split <;> exact frozen
  · push Not at settles
    have clears : op = .clearSourceFreeze →
        ¬store.memory.cycleEvidenceComplete store.memory.sourceBalanceIsAdmissible = true := by
      rintro rfl
      exact holds
    obtain same | ⟨t, yields, saved | kept⟩ :=
      store.commit_cases pub (op.change digest store.memory)
    · rw [JsonStateStore.call, same]
      exact frozen
    · rw [JsonStateStore.call, saved]
      exact change_frozen frozen yields clears settles
    · rw [JsonStateStore.call, kept]
      exact change_frozen frozen yields clears settles

theorem callAll_frozen {digest : String → String} {store : JsonStateStore} {calls : List Call}
    (frozen : store.memory.Frozen)
    (holds : store.EachCall digest (fun before c => ¬c.Releases before) calls) :
    (store.callAll digest calls).memory.Frozen := by
  induction calls generalizing store with
  | nil => exact frozen
  | cons c calls ih => exact ih (call_frozen frozen holds.1) holds.2

/-- A freeze takes effect in memory whether it is written or not. -/
theorem freeze_takes_effect {digest : String → String} {store : JsonStateStore} {reason : String}
    (named : reason ≠ "") (pub : Publication) :
    (store.call digest ⟨.freezeSourceSubmissions reason, pub⟩).memory.Frozen := by
  simp only [JsonStateStore.call, StoreOp.change, StoreState.freezeSourceSubmissions, if_neg named]
  split
  · rename_i already
    exact Option.isSome_iff_ne_none.1 already
  · cases pub <;> exact Option.some_ne_none _

namespace MakerStateStore

variable {o : MakerStateStore} {digest : String → String} {v : ViewKey}

theorem views_setView (b : Book) (w : ViewKey) (t : StoreState) (v : ViewKey) :
    (b.setView w t).views v = if v = w then t else b.views v := by
  simp only [Book.setView, Function.update_apply]

theorem view_setView (o : MakerStateStore) (w : ViewKey) (t : StoreState) (v : ViewKey) :
    (o.setView w t).view v = if v = w then t else o.view v :=
  views_setView o.book w t v

/-- A publication leaves each view as it was handed over or as it was committed. -/
theorem persist_view (changed : MakerStateStore) (pub : Publication) (v : ViewKey) :
    (changed.persist pub).2.view v = changed.view v ∨
      (changed.persist pub).2.view v = changed.committed.views v := by
  have handed : changed.candidate.view v = changed.view v := by
    unfold candidate
    split <;> rfl
  have committed := changed.candidate_committed.1
  have restored : (changed.candidate.setBook changed.candidate.committed).view v =
      changed.committed.views v := by
    rw [committed]
    rfl
  unfold persist
  dsimp only
  split
  · exact .inr restored
  · cases pub with
    | published | parentSyncFailed => exact .inl handed
    | failed => exact .inr restored

theorem persist_frozen (changed : MakerStateStore) (frozen : (changed.view v).Frozen)
    (committed : (changed.committed.views v).Frozen) (pub : Publication) :
    ((changed.persist pub).2.view v).Frozen := by
  obtain same | same := changed.persist_view pub v
  · rwa [same]
  · rwa [same]

theorem committed_frozen (h : Settled o) (frozen : (o.view v).Frozen) :
    (o.committed.views v).Frozen := by
  rw [← h.same]
  exact frozen

theorem transact_frozen (change : Except Raised MakerStateStore) (h : Settled o)
    (frozen : (o.view v).Frozen)
    (changes : ∀ changed, change = .ok changed →
      changed.committed = o.committed ∧ (changed.view v).Frozen) (pub : Publication) :
    ((o.transact pub change).2.view v).Frozen := by
  cases change with
  | error => exact frozen
  | ok changed =>
    obtain ⟨committed, held⟩ := changes changed rfl
    have stored := persist_frozen changed held (committed ▸ committed_frozen h frozen) pub
    unfold transact
    dsimp only
    split <;> rename_i result <;> rw [result] at stored
    · exact stored
    · dsimp only
      split
      · exact stored
      · exact frozen

theorem commitView_frozen {α : Type} (h : Settled o) (frozen : (o.view v).Frozen) (w : ViewKey)
    (pub : Publication) {c : Change StoreState α}
    (keeps : w = v → ∀ t, c.Yields t → t.Frozen) : ((o.commitView w pub c).2.view v).Frozen := by
  have publishes (t : StoreState) (a : α) (held : w = v → t.Frozen) :
      ((o.commitView w pub (.publishes t a)).2.view v).Frozen := by
    have changed : ((o.setView w t).view v).Frozen := by
      rw [view_setView]
      split
      · rename_i same
        exact held same.symm
      · exact frozen
    have committed := committed_frozen h frozen
    have stored := persist_frozen _ changed committed pub
    unfold commitView
    dsimp only
    split <;> rename_i result <;> rwa [result] at stored
  cases c with
  | raises | keeps => exact frozen
  | publishes t a => exact publishes t a fun same => keeps same t (.publishes t a)
  | reserves t a =>
    rw [commitView_reserves h]
    exact publishes t a fun same => keeps same t (.reserves t a)

theorem commitView_keeps {α : Type} (h : Settled o) (frozen : (o.view v).Frozen) (w : ViewKey)
    (pub : Publication) {c : Change StoreState α} (keeps : c.KeepsFreeze (o.view w)) :
    ((o.commitView w pub c).2.view v).Frozen := by
  refine commitView_frozen h frozen w pub fun same t yields => ?_
  rw [StoreState.Frozen, keeps t yields, same]
  exact frozen

theorem setFreezes_frozen (reason : String) (views : List ViewKey)
    (h : v ∈ views ∨ (o.view v).Frozen) : ((o.setFreezes reason views).view v).Frozen := by
  unfold setFreezes
  change (if v ∈ views then freezeView (o.view v) _ else o.view v).Frozen
  split
  · exact Option.some_ne_none _
  · rename_i outside
    exact h.resolve_left outside

theorem freezeExternal_frozen (h : Settled o) (frozen : (o.view v).Frozen) (pub : Publication)
    (reason : String) (views : List ViewKey) :
    ((o.freezeExternal pub reason views).2.view v).Frozen := by
  unfold freezeExternal
  split
  · exact frozen
  · split
    · have committed := committed_frozen h frozen
      have stored := persist_frozen ((o.setFreezes reason views).setBook
          { (o.setFreezes reason views).book with cycleFreezeOnly := false })
        (setFreezes_frozen reason views (.inr frozen)) committed pub
      dsimp only
      split <;> rename_i result <;> rw [result] at stored <;> exact stored
    · exact frozen

theorem applySourceFill_frozen {filled : MakerStateStore} {w : ViewKey} {fill : SourceFill}
    {blockedReason : Option String} {intent : Option HedgeIntent} (frozen : (o.view v).Frozen)
    (h : o.applySourceFill digest w fill blockedReason = .ok (filled, intent)) :
    (filled.view v).Frozen := by
  unfold applySourceFill at h
  split at h
  · cases h
    exact frozen
  · split at h
    · cases h
      exact frozen
    · simp only [bind_eq_ok, Prod.exists, pure_eq_ok, Prod.mk.injEq] at h
      obtain ⟨recorded, made, opened, intent', opens, rfl, -⟩ := h
      rw [MakerStateStore.view, setBook, views_setView]
      split
      · rename_i same
        have kept : opened.sourceFreezeReason = recorded.sourceFreezeReason :=
          (StoreState.openHedgeIntent_freeze opens).trans
            (by simp [OwnerConfig.allocate, Book.setView])
        rw [StoreState.Frozen, kept, StoreState.recordSourceFill_freeze made, ← same]
        exact frozen
      · rename_i apart
        change ((o.book.setView w recorded).views v).Frozen
        rw [views_setView, if_neg apart]
        exact frozen

/-- A fill holds every view before it is allocated. -/
theorem reserveSourceFill_frozen (h : Settled o) (frozen : (o.view v).Frozen) (w : ViewKey)
    (pub : Publication) (fill : SourceFill) :
    ((o.reserveSourceFill digest w pub fill).2.view v).Frozen := by
  unfold reserveSourceFill
  split
  · exact frozen
  · cases applied : (o.freezeForFill fill).applySourceFill digest w fill none with
    | error => exact frozen
    | ok result =>
      obtain ⟨filled, intent⟩ := result
      have held : ((o.freezeForFill fill).view v).Frozen := by
        unfold freezeForFill
        exact setFreezes_frozen _ _ (.inr frozen)
      have stored := transact_frozen (.ok filled) h frozen (by
        rintro _ ⟨⟩
        exact ⟨(applySourceFill_committed applied).1, applySourceFill_frozen held applied⟩) pub
      unfold transact at stored
      dsimp only at stored ⊢
      split <;> rename_i result <;> rw [result] at stored <;> exact stored

theorem holdViews_frozen (frozen : (o.view v).Frozen) (reason : String) :
    ((o.holdViews reason).view v).Frozen := by
  unfold holdViews
  change (if v ∈ o.cfg.viewKeys then (o.view v).hold reason else o.view v).Frozen
  split
  · exact StoreState.hold_frozen _ _
  · exact frozen

theorem projectSourceFills_frozen (h : Settled o) (frozen : (o.view v).Frozen) (w : ViewKey)
    (pub : Publication) (reason : String) (fills : List SourceFill) :
    ((o.transact pub (o.projectSourceFills digest w reason fills)).2.view v).Frozen := by
  refine transact_frozen _ h frozen (fun changed projected => ?_) pub
  refine foldlM_invariant (s := o.holdViews reason)
    (P := fun u : MakerStateStore => u.committed = o.committed ∧ (u.view v).Frozen)
    (fun u fill u' kept turn => ?_) ⟨rfl, holdViews_frozen frozen reason⟩ projected
  obtain ⟨⟨filled, opened⟩, applied, rfl⟩ := map_eq_ok.1 turn
  exact ⟨(applySourceFill_committed applied).1.trans kept.1, applySourceFill_frozen kept.2 applied⟩

theorem projectHedgeFills_frozen (h : Settled o) (frozen : (o.view v).Frozen) (pub : Publication)
    (reason : String) (fills : List (ViewKey × HedgeFill)) :
    ((o.transact pub (o.projectHedgeFills reason fills)).2.view v).Frozen := by
  refine transact_frozen _ h frozen (fun changed projected => ?_) pub
  refine foldlM_invariant (s := o.holdViews reason)
    (P := fun u : MakerStateStore => u.committed = o.committed ∧ (u.view v).Frozen)
    (fun u fill u' kept turn => ?_) ⟨rfl, holdViews_frozen frozen reason⟩ projected
  simp only [bind_eq_ok, pure_eq_ok, Prod.exists] at turn
  obtain ⟨filled, changed, applied, rfl⟩ := turn
  refine ⟨kept.1, ?_⟩
  rw [view_setView]
  split
  · rename_i same
    rw [StoreState.Frozen, StoreState.applyFill_freeze applied, ← same]
    exact kept.2
  · exact kept.2

/-- The owner's clearance was published. -/
def Cleared (o : MakerStateStore) (pub : Publication) : Prop :=
  (o.clearSourceFreezes pub).1 = .ok true ∨
    (o.clearSourceFreezes pub).1 = .error .parentDirectorySyncError

theorem clearSourceFreezes_kept (h : Settled o) {pub : Publication} (kept : ¬o.Cleared pub) :
    (o.clearSourceFreezes pub).2.book = o.book := by
  have atomic := clearSourceFreezes_atomic h
  have settled := (atomic.settled pub).1
  cases outcome : (o.clearSourceFreezes pub).1 with
  | error e =>
    have other : e ≠ .parentDirectorySyncError := fun same => kept (.inr (same ▸ outcome))
    rw [settled.same, atomic.failed pub e outcome other, h.same]
  | ok cleared =>
    obtain rfl : cleared = false := by
      cases cleared with
      | false => rfl
      | true => exact absurd (.inl outcome) kept
    unfold clearSourceFreezes at outcome ⊢
    split at outcome
    · rename_i guarded
      rw [if_pos guarded]
    · split at outcome <;> cases outcome

theorem clearSourceFreeze_kept (h : Settled o) {pub : Publication} (kept : ¬o.Cleared pub) :
    (o.clearSourceFreeze pub).2.book = o.book := by
  have same := clearSourceFreezes_kept h kept
  unfold clearSourceFreeze
  split <;> rename_i result <;> rw [result] at same
  · exact same
  · split <;> exact same

theorem releaseCompletedCycle_kept (h : Settled o) {pub : Publication} (kept : ¬o.Cleared pub) :
    (o.releaseCompletedCycle pub).2.book = o.book := by
  unfold releaseCompletedCycle
  split
  · exact clearSourceFreezes_kept h kept
  · rfl

theorem callView_frozen (h : Settled o) (frozen : (o.view v).Frozen) (w : ViewKey)
    (pub : Publication) {op : StoreOp} (holds : op = .clearSourceFreeze → ¬o.Cleared pub) :
    ((o.callView digest w pub op).2.view v).Frozen := by
  cases op with
  | freezeSourceSubmissions reason => exact freezeExternal_frozen h frozen pub reason [w]
  | clearSourceFreeze =>
    have same := clearSourceFreeze_kept h (holds rfl)
    change ((o.clearSourceFreeze pub).2.book.views v).Frozen
    rw [same]
    exact frozen
  | recoverForStart =>
    exact commitView_keeps h frozen w pub (StoreState.recoverForStart_freeze _).discard
  | beginSource request =>
    refine commitView_frozen h frozen w pub fun same t yields => ?_
    rw [← same] at frozen
    rw [frozen.beginSource, Change.yields_raises] at yields
    exact yields.elim
  | updateSourceStatus =>
    exact commitView_keeps h frozen w pub (StoreState.updateSourceStatus_freeze _ _ _)
  | confirmSourceReconciled =>
    exact commitView_keeps h frozen w pub (StoreState.confirmSourceReconciled_freeze _ _)
  | markSourceUnknown =>
    exact commitView_keeps h frozen w pub (StoreState.markSourceUnknown_freeze _ _ _)
  | reserveSourceFill fill =>
    have held : ((o.reserveSourceFill digest w pub fill).2.view v).Frozen :=
      reserveSourceFill_frozen h frozen w pub fill
    unfold callView
    dsimp only
    split <;> rename_i result <;> rwa [result] at held
  | bindHedgeOrder =>
    exact commitView_keeps h frozen w pub (StoreState.bindHedgeOrder_freeze _ _ _)
  | bindHedgePlan =>
    exact commitView_keeps h frozen w pub (StoreState.bindHedgePlan_freeze _ _ _).discard
  | blockHedgeIntent =>
    exact commitView_keeps h frozen w pub (StoreState.blockHedgeIntent_freeze _ _ _)
  | updateHedgeStatus =>
    exact commitView_keeps h frozen w pub (StoreState.updateHedgeStatus_freeze _ _ _ _)
  | applyHedgeFill fill =>
    exact commitView_keeps h frozen w pub (StoreState.applyHedgeFill_freeze _ fill).discard
  | projectSourceFills | projectHedgeFills | settleCompleted => exact frozen

end MakerStateStore

/-- The call gives the owner's freezes back and is published. -/
def OwnerOp.Clears (o : MakerStateStore) (pub : Publication) : OwnerOp → Prop
  | .view _ .clearSourceFreeze | .clearSourceFreezes | .releaseCompletedCycle => o.Cleared pub
  | _ => False

/-- The views a request to stop is about. -/
def OwnerOp.covers (o : MakerStateStore) : OwnerOp → List ViewKey
  | .view v (.freezeSourceSubmissions _) => [v]
  | .freezeSources _ => o.cfg.viewKeys
  | _ => []

namespace MakerStateStore

variable {o : MakerStateStore} {digest : String → String} {v : ViewKey}

/-- A property of every call of a sequence and of the owner it meets. -/
def EachCall (digest : String → String) (P : MakerStateStore → OwnerOp × Publication → Prop)
    (o : MakerStateStore) : List (OwnerOp × Publication) → Prop
  | [] => True
  | c :: calls => P o c ∧ EachCall digest P (o.call digest c.2 c.1).2 calls

theorem call_frozen (h : Settled o) (frozen : (o.view v).Frozen) {pub : Publication}
    {op : OwnerOp} (holds : ¬op.Clears o pub) : ((o.call digest pub op).2.view v).Frozen := by
  cases op with
  | view w op =>
    refine callView_frozen h frozen w pub ?_
    rintro rfl
    exact holds
  | freezeSources reason => exact freezeExternal_frozen h frozen pub reason _
  | clearSourceFreezes =>
    change ((o.clearSourceFreezes pub).2.book.views v).Frozen
    rw [clearSourceFreezes_kept h holds]
    exact frozen
  | releaseCompletedCycle =>
    change ((o.releaseCompletedCycle pub).2.book.views v).Frozen
    rw [releaseCompletedCycle_kept h holds]
    exact frozen
  | projectSourceFills w reason fills => exact projectSourceFills_frozen h frozen w pub reason fills
  | projectHedgeFills reason fills => exact projectHedgeFills_frozen h frozen pub reason fills

theorem callAll_frozen (h : Owned digest o) (frozen : (o.view v).Frozen)
    {calls : List (OwnerOp × Publication)}
    (holds : o.EachCall digest (fun before c => ¬c.1.Clears before c.2) calls) :
    ((o.callAll digest calls).view v).Frozen := by
  induction calls generalizing o with
  | nil => exact frozen
  | cons c calls ih =>
    exact ih (.call c.1 c.2 h) (call_frozen (owned_settled h) frozen holds.1) holds.2

/-- A publication that took place leaves each view as it was handed over. -/
theorem persist_took (changed : MakerStateStore) (pub : Publication) (v : ViewKey)
    (took : (changed.persist pub).1 = .ok () ∨
      (changed.persist pub).1 = .error .parentDirectorySyncError) :
    (changed.persist pub).2.view v = changed.view v := by
  have handed : changed.candidate.view v = changed.view v := by
    unfold candidate
    split <;> rfl
  unfold persist at took ⊢
  dsimp only at took ⊢
  split at took
  · rename_i invalid
    simp only [reduceCtorEq, false_or, Except.error.injEq] at took
    exact absurd (took ▸ invalid) (OwnerConfig.validate_noSync _ _)
  · cases pub with
    | published | parentSyncFailed => exact handed
    | failed => simp at took

/-- A freeze that was published, synced or not, holds the views it covers. -/
theorem freezeExternal_covers {pub : Publication} {reason : String} {views : List ViewKey}
    (named : reason ≠ "") (member : v ∈ views)
    (took : (o.freezeExternal pub reason views).1 = .ok () ∨
      (o.freezeExternal pub reason views).1 = .error .parentDirectorySyncError) :
    ((o.freezeExternal pub reason views).2.view v).Frozen := by
  unfold freezeExternal at took ⊢
  rw [if_neg named] at took ⊢
  split at took
  · rename_i fresh
    rw [if_pos fresh]
    have held : (((o.setFreezes reason views).setBook
        { (o.setFreezes reason views).book with cycleFreezeOnly := false }).view v).Frozen :=
      setFreezes_frozen reason views (.inl member)
    dsimp only at took ⊢
    generalize (o.setFreezes reason views).setBook
      { (o.setFreezes reason views).book with cycleFreezeOnly := false } = frozen at held took ⊢
    have stored := persist_took frozen pub v
    split at took <;> rename_i result <;> rw [result] at stored
    · rw [stored (.inl rfl)]
      exact held
    · rw [← stored took] at held
      exact held
  · rename_i already
    rw [if_neg already]
    push Not at already
    exact already.2 v member

end MakerStateStore

/-- `begin_source` raises whatever it asks and whatever would become of its publication. -/
def JsonStateStore.Refuses (digest : String → String) (store : JsonStateStore) : Prop :=
  ∀ request pub, store.commit pub (StoreOp.change digest store.memory (.beginSource request)) =
    (.error StoreState.sourceBlocked, store)

def MakerStateStore.Refuses (digest : String → String) (o : MakerStateStore) (v : ViewKey) : Prop :=
  ∀ request pub, o.callView digest v pub (.beginSource request) =
    (.error StoreState.sourceBlocked, o)

theorem JsonStateStore.refuses_of_frozen {digest : String → String} {store : JsonStateStore}
    (frozen : store.memory.Frozen) : store.Refuses digest := by
  intro request pub
  rw [StoreOp.change, frozen.beginSource]
  rfl

theorem MakerStateStore.refuses_of_frozen {digest : String → String} {o : MakerStateStore}
    {v : ViewKey} (frozen : (o.view v).Frozen) : o.Refuses digest v := by
  intro request pub
  rw [callView, frozen.beginSource]
  rfl

/-- The shared admission refuses an owner whose freeze was not published. -/
theorem revoked_refuses (a : SharedSourceAdmission) (market : Market) {o : MakerStateStore}
    (revoked : o.freezePublicationFailed = true) (v : ViewKey) (side : BusinessOrderSide)
    (quantity : ℚ) (pub : Publication) : a.call market o v side quantity pub = (.ok false, o) := by
  have shut : SharedSourceAdmission.ownerAdmits o v = false := by
    simp [SharedSourceAdmission.ownerAdmits, revoked]
  unfold SharedSourceAdmission.call
  rw [if_pos (.inr (.inr (.inl shut)))]

theorem covered_freeze {digest : String → String} {o : MakerStateStore} {op : OwnerOp}
    {pub : Publication} {v : ViewKey} (freezes : op.Freezes) (member : v ∈ op.covers o)
    (took : (o.call digest pub op).1 = .ok () ∨
      (o.call digest pub op).1 = .error .parentDirectorySyncError) :
    ((o.call digest pub op).2.view v).Frozen := by
  cases op with
  | view w op =>
    cases op with
    | freezeSourceSubmissions reason =>
      exact MakerStateStore.freezeExternal_covers freezes member took
    | _ => exact freezes.elim
  | freezeSources reason => exact MakerStateStore.freezeExternal_covers freezes member took
  | _ => exact freezes.elim

/-- A stop of the whole owner that is not written lets the next source in. -/
theorem unwritten_stop_forgotten : ∃ o, Owned id o ∧
    (o.call id .failed (.freezeSources "operator stop")).1 = .error .osError ∧
    ¬(o.call id .failed (.freezeSources "operator stop")).2.Refuses id .taker := by
  refine ⟨freshOwner, freshOwner_owned id, by decide +kernel, fun refuses => ?_⟩
  have blocked := refuses { clientOrderId := "O-1", side := .buy, quantityOunces := 1 } .published
  have admitted : ((freshOwner.call id .failed (.freezeSources "operator stop")).2.callView id
      .taker .published (.beginSource
        { clientOrderId := "O-1", side := .buy, quantityOunces := 1 })).1 = .ok () := by
    decide +kernel
  rw [blocked] at admitted
  cases admitted

/-- A requested stop: a standalone store keeps it in memory, written or not, until its clearance
or settlement; an owner keeps it once it is published, until its clearance is, and otherwise
stands at its last published book, gives no freeze back and is refused by the admission. -/
theorem requested_stop (digest : String → String) {reason : String} (named : reason ≠ "") :
    (∀ (store : JsonStateStore) (pub : Publication) (calls : List Call),
      (store.call digest ⟨.freezeSourceSubmissions reason, pub⟩).EachCall digest
        (fun before c => ¬c.Releases before) calls →
      ((store.call digest ⟨.freezeSourceSubmissions reason, pub⟩).callAll digest calls).Refuses
        digest) ∧
    ∀ (o : MakerStateStore) (op : OwnerOp) (pub : Publication), Owned digest o →
      (op = .freezeSources reason ∨ ∃ v, op = .view v (.freezeSourceSubmissions reason)) →
      ((o.call digest pub op).1 = .ok () ∨
          (o.call digest pub op).1 = .error .parentDirectorySyncError →
        ∀ calls, (o.call digest pub op).2.EachCall digest
          (fun before c => ¬c.1.Clears before c.2) calls →
        ∀ v ∈ op.covers o, ((o.call digest pub op).2.callAll digest calls).Refuses digest v) ∧
      ∀ e, (o.call digest pub op).1 = .error e → e ≠ .parentDirectorySyncError →
        (o.call digest pub op).2.book = o.committed ∧
        ∀ calls again,
        (((o.call digest pub op).2.callAll digest calls).clearSourceFreezes again).1 =
            .ok false ∧
          ∀ (a : SharedSourceAdmission) (market : Market) (v : ViewKey) (side : BusinessOrderSide)
            (quantity : ℚ), a.call market ((o.call digest pub op).2.callAll digest calls) v side
              quantity again = (.ok false, (o.call digest pub op).2.callAll digest calls) := by
  refine ⟨fun store pub calls holds => ?_, fun o op pub owned request => ?_⟩
  · exact JsonStateStore.refuses_of_frozen
      (callAll_frozen (freeze_takes_effect named pub) holds)
  · have freezes : op.Freezes := by
      obtain rfl | ⟨v, rfl⟩ := request
      · exact named
      · exact named
    have later : Owned digest (o.call digest pub op).2 := .call op pub owned
    refine ⟨fun took calls holds v member => ?_, fun e raised other => ?_⟩
    · exact MakerStateStore.refuses_of_frozen
        (MakerStateStore.callAll_frozen later (covered_freeze freezes member took) holds)
    · have atomic := MakerStateStore.call_atomic digest (owned_settled owned) op
      have marked := freeze_marks freezes raised
      refine ⟨?_, fun calls again => ⟨revoked_for_good later marked calls again, ?_⟩⟩
      · rw [(atomic.settled pub).1.same]
        exact atomic.failed pub e raised other
      · exact fun a market v side quantity =>
          revoked_refuses a market (revoked_callAll later marked calls) v side quantity again

/-- An unwritten stop of a new store, and a written one of a shared owner. -/
theorem operator_stop_refuses :
    (JsonStateStore.empty.call id ⟨.freezeSourceSubmissions "operator stop", .failed⟩).Refuses id ∧
    (freshOwner.call id .published (.freezeSources "operator stop")).2.Refuses id .taker := by
  have stop := requested_stop id (show "operator stop" ≠ "" by decide)
  exact ⟨stop.1 .empty .failed [] trivial,
    (stop.2 freshOwner (.freezeSources "operator stop") .published (freshOwner_owned id)
      (.inl rfl)).1 (.inl (by decide +kernel)) [] trivial .taker (by decide)⟩

end ArbNautilus.Store
