import ArbNautilus.Store.Maker

namespace ArbNautilus.Store

open Base

/-- Only a publication reports that its directory could not be synced. -/
abbrev NoSync {α : Type*} (x : Except Raised α) : Prop := Never .parentDirectorySyncError x

theorem IntentFields.postInit_noSync (i : IntentFields) : NoSync i.postInit := by
  unfold postInit checkAttempts checkAttempt checkProgress checkPlan checkLeg
  repeat' first
    | exact never_raiseIf nofun
    | exact never_pure _
    | refine never_bind ?_ fun _ => ?_
    | split

theorem IntentFields.make_noSync (i : IntentFields) : NoSync i.make := by
  have checked := i.postInit_noSync
  unfold make
  split
  · exact never_ok _
  · rename_i raised
    exact never_error fun same => checked (raised.trans (congrArg _ same))

namespace StoreState

variable (s : StoreState)

theorem checkRequest_noSync (admissible : Bool) (r : SourceRequest) :
    NoSync (s.checkRequest admissible r) := by
  unfold checkRequest
  repeat' first
    | exact never_raiseIf nofun
    | refine never_bind ?_ fun _ => ?_

theorem mapIntents_noSync {f : HedgeIntent → Except Raised HedgeIntent}
    (each : ∀ intent, NoSync (f intent)) (intents : List HedgeIntent) :
    NoSync (mapIntents f s intents) :=
  never_foldlM (fun _ intent => never_bind (each intent) fun _ => never_pure _) intents s

theorem holdRejectedAttempt_noSync (intent : HedgeIntent) (clientOrderId fact : String) :
    NoSync (s.holdRejectedAttempt intent clientOrderId fact) :=
  never_bind (IntentFields.make_noSync _) fun _ => never_pure _

theorem applyFill_noSync (fill : HedgeFill) (blockedReason : Option String) :
    NoSync (s.applyFill fill blockedReason) := by
  unfold applyFill
  split
  · exact never_ok _
  · split
    · exact never_ok _
    · split
      · exact s.holdRejectedAttempt_noSync _ _ _
      · refine never_bind (never_raiseIf nofun) fun _ => ?_
        exact never_bind (IntentFields.make_noSync _) fun _ => never_pure _

theorem recordSourceFill_noSync (record : SourceOrderRecord) (fill : SourceFill)
    (blockedReason : Option String) : NoSync (s.recordSourceFill record fill blockedReason) := by
  unfold recordSourceFill
  refine never_bind (never_raiseIf nofun) fun _ => never_bind (never_raiseIf nofun) fun _ => ?_
  dsimp only
  split
  · exact never_pure _
  · exact never_pure _

theorem openHedgeIntent_noSync (digest : String → String) (record : SourceOrderRecord)
    (fill : SourceFill) (blockedReason : Option String) (rounded : ℤ) :
    NoSync (s.openHedgeIntent digest record fill blockedReason rounded) := by
  unfold openHedgeIntent
  split
  · exact never_ok _
  · exact never_bind (IntentFields.make_noSync _) fun _ => never_pure _

end StoreState

/-- A call's own errors are never those of its publication. -/
def Change.Honest {σ α : Type} (c : Change σ α) : Prop :=
  ∀ e, c = .raises e → e ≠ .parentDirectorySyncError

namespace StoreState

variable (s : StoreState)

theorem recoverForStart_honest : s.recoverForStart.Honest := by
  have marked (t : StoreState) (intents : List HedgeIntent) :
      NoSync (mapIntents markUnknown t intents) :=
    t.mapIntents_noSync (fun _ => IntentFields.make_noSync _) intents
  intro e raised
  unfold recoverForStart at raised
  dsimp only at raised
  split at raised
  · cases raised
  · split at raised
    · split at raised
      · rename_i failed
        cases raised
        exact fun same => marked _ _ (same ▸ failed)
      · cases raised
    · split at raised
      · cases raised
        nofun
      · split at raised
        · rename_i failed
          cases raised
          exact fun same => marked _ _ (same ▸ failed)
        · cases raised

theorem beginSource_honest (admissible : Bool) (r : SourceRequest) :
    (s.beginSource admissible r).Honest := by
  intro e raised
  unfold beginSource at raised
  split at raised
  · rename_i failed
    cases raised
    exact fun same => s.checkRequest_noSync admissible r (same ▸ failed)
  · cases raised

theorem bindHedgeOrder_honest (intentId clientOrderId : String) :
    (s.bindHedgeOrder intentId clientOrderId).Honest := by
  intro e raised
  unfold bindHedgeOrder at raised
  split at raised
  · cases raised
    nofun
  · split at raised
    · cases raised
      nofun
    · split at raised
      · rename_i failed
        cases raised
        exact fun same => IntentFields.make_noSync _ (same ▸ failed)
      · cases raised

theorem bindHedgePlan_honest (intentId : String) (plan : List HedgeLeg) :
    (s.bindHedgePlan intentId plan).Honest := by
  have checked (intent : HedgeIntent) : NoSync (checkBinding intent plan) := by
    unfold checkBinding
    repeat' first
      | exact never_raiseIf nofun
      | refine never_bind ?_ fun _ => ?_
  intro e raised
  unfold bindHedgePlan at raised
  split at raised
  · cases raised
    nofun
  · split at raised
    · split at raised
      · cases raised
        nofun
      · cases raised
    · split at raised
      · rename_i failed
        cases raised
        exact fun same => checked _ (same ▸ failed)
      · split at raised
        · rename_i failed
          cases raised
          exact fun same => IntentFields.make_noSync _ (same ▸ failed)
        · cases raised

theorem blockHedgeIntent_honest (intentId reason : String) :
    (s.blockHedgeIntent intentId reason).Honest := by
  intro e raised
  unfold blockHedgeIntent at raised
  split at raised
  · cases raised
    nofun
  · split at raised
    · cases raised
      nofun
    · split at raised
      · cases raised
        nofun
      · split at raised
        · rename_i failed
          cases raised
          exact fun same => IntentFields.make_noSync _ (same ▸ failed)
        · cases raised

theorem updateHedgeStatus_honest (clientOrderId : String) (status : ObligationStatus)
    (nativeStatus : Option String) :
    (s.updateHedgeStatus clientOrderId status nativeStatus).Honest := by
  intro e raised
  unfold updateHedgeStatus at raised
  split at raised
  · cases raised
  · split at raised
    · split at raised
      · split at raised
        · rename_i failed
          cases raised
          exact fun same => s.holdRejectedAttempt_noSync _ _ _ (same ▸ failed)
        · split at raised <;> cases raised
      · cases raised
    · split at raised
      · cases raised
      · split at raised
        · rename_i failed
          cases raised
          exact fun same => IntentFields.make_noSync _ (same ▸ failed)
        · cases raised

theorem applyHedgeFill_honest (fill : HedgeFill) : (s.applyHedgeFill fill).Honest := by
  intro e raised
  unfold applyHedgeFill at raised
  split at raised
  · cases raised
  · split at raised
    · rename_i failed
      cases raised
      exact fun same => s.applyFill_noSync fill none (same ▸ failed)
    · split at raised <;> cases raised

theorem confirmSourceReconciled_honest (clientOrderId : String) :
    (s.confirmSourceReconciled clientOrderId).Honest := by
  intro e raised
  unfold confirmSourceReconciled at raised
  split at raised
  · cases raised
    nofun
  · split at raised
    · cases raised
    · cases raised
      nofun

end StoreState

theorem Change.Honest.discard {σ α : Type} {c : Change σ α} (h : c.Honest) :
    c.discard.Honest := by
  intro e raised
  cases c with
  | raises error =>
    cases raised
    exact h e rfl
  | keeps | publishes | reserves => cases raised

namespace OwnerConfig

variable (cfg : OwnerConfig) (b : Book)

theorem checkTrades_noSync (trade : String → Option (Option String × String))
    (keys : Finset String) (known : Finset (Option String × String))
    (invalid conflicting : String) : NoSync (checkTrades trade keys known invalid conflicting) := by
  unfold checkTrades
  refine never_bind (never_raiseIf nofun) fun _ => never_bind (never_raiseIf nofun) fun _ => ?_
  exact never_pure _

theorem checkIntent_noSync (s : StoreState) (side : Option BusinessOrderSide)
    (acc : Identities × Dict String (Option String)) (entry : String × HedgeIntent) :
    NoSync (checkIntent s side acc entry) := by
  obtain ⟨ids, accounts⟩ := acc
  obtain ⟨key, intent⟩ := entry
  unfold checkIntent
  dsimp only
  repeat' first
    | exact never_raiseIf nofun
    | exact never_pure _
    | exact never_error nofun
    | refine never_bind ?_ fun _ => ?_
    | split

theorem checkView_noSync (ids : Identities) (v : ViewKey) : NoSync (checkView b ids v) := by
  have record (side : Option BusinessOrderSide) (ids : Identities)
      (entry : String × SourceOrderRecord) : NoSync (checkRecord side ids entry) := by
    unfold checkRecord
    repeat' first
      | exact never_raiseIf nofun
      | exact never_pure _
      | refine never_bind ?_ fun _ => ?_
  unfold checkView
  refine never_bind (never_raiseIf nofun) fun _ => never_bind (never_raiseIf nofun) fun _ =>
    never_bind (never_foldlM (record _) _ _) fun _ => never_bind (never_raiseIf nofun) fun _ =>
    never_bind (checkTrades_noSync _ _ _ _ _) fun _ =>
    never_bind (never_foldlM (checkIntent_noSync _ _) _ _) fun _ => ?_
  exact never_bind (checkTrades_noSync _ _ _ _ _) fun _ => never_pure _

theorem checkLegacyOrder_noSync (byId : Dict String HedgeIntent) (tally : Tally)
    (item : LegacyOrder) : NoSync (cfg.checkLegacyOrder b byId tally item) := by
  have legacy (acc : Dict String HedgeIntent × ℚ × ℚ) (intentId : String) :
      NoSync (checkLegacyIntent byId item acc intentId) := by
    unfold checkLegacyIntent
    dsimp only
    split
    · exact never_error nofun
    · exact never_bind (never_raiseIf nofun) fun _ => never_pure _
  unfold checkLegacyOrder
  dsimp only
  split
  · exact never_error nofun
  · refine never_bind (never_raiseIf nofun) fun _ => never_bind (never_raiseIf nofun) fun _ =>
      never_bind (never_foldlM legacy _ _) fun _ => ?_
    exact never_bind (never_raiseIf nofun) fun _ => never_pure _

theorem checkAllocation_noSync (tally : Tally) (item : Allocation) :
    NoSync (cfg.checkAllocation b tally item) := by
  unfold checkAllocation
  dsimp only
  refine never_bind (never_raiseIf nofun) fun _ => ?_
  split
  · exact never_error nofun
  · refine never_bind (never_raiseIf nofun) fun _ => never_bind (never_raiseIf nofun) fun _ => ?_
    split
    · split
      · exact never_pure _
      · exact never_error nofun
    · refine never_bind (never_raiseIf nofun) fun _ => never_bind (never_raiseIf nofun) fun _ => ?_
      exact never_pure _

theorem validate_noSync : NoSync (cfg.validate b) := by
  have allocations : NoSync (cfg.validateAllocations b) := by
    unfold validateAllocations
    refine never_bind (never_raiseIf nofun) fun _ =>
      never_bind (never_foldlM (cfg.checkLegacyOrder_noSync b _) _ _) fun _ =>
      never_bind (never_foldlM (cfg.checkAllocation_noSync b) _ _) fun _ => ?_
    exact never_raiseIf nofun
  unfold validate
  refine never_bind (never_raiseIf nofun) fun _ => never_bind (never_raiseIf nofun) fun _ =>
    never_bind (never_foldlM (checkView_noSync b) _ _) fun _ => ?_
  exact never_bind (never_raiseIf nofun) fun _ => allocations

end OwnerConfig

namespace MakerStateStore

/-- A change of the whole owner: a snapshot comes back unless the change was published. -/
def transact (o : MakerStateStore) (pub : Publication) (change : Except Raised MakerStateStore) :
    Except Raised Unit × MakerStateStore :=
  match change with
  | .error e => (.error e, o)
  | .ok changed => match changed.persist pub with
    | (.ok (), o') => (.ok (), o')
    | (.error e, o') =>
      (.error e, if e = .parentDirectorySyncError then o' else o'.setBook o.book)

/-- The HOLD a projection leaves on every view. -/
def holdViews (o : MakerStateStore) (reason : String) : MakerStateStore :=
  o.setBook { o.book with
    views := fun v => if v ∈ o.cfg.viewKeys then (o.view v).hold reason else o.view v }

/-- The business change of `project_source_fills`; its native checks only restrict the fills. -/
def projectSourceFills (digest : String → String) (o : MakerStateStore) (v : ViewKey)
    (reason : String) (fills : List SourceFill) : Except Raised MakerStateStore :=
  fills.foldlM (fun o fill => Prod.fst <$> o.applySourceFill digest v fill (some reason))
    (o.holdViews reason)

def projectHedgeFills (o : MakerStateStore) (reason : String)
    (fills : List (ViewKey × HedgeFill)) : Except Raised MakerStateStore :=
  fills.foldlM (fun o fill => do
    let (filled, _) ← (o.view fill.1).applyFill fill.2 (some reason)
    pure (o.setView fill.1 filled)) (o.holdViews reason)

/-- A view of a shared owner gives its completed cycle's freeze back. -/
def releaseCompletedCycle (o : MakerStateStore) (pub : Publication) :
    Except Raised Bool × MakerStateStore :=
  if o.cfg.sharedStrategyIds.isSome ∧ o.releasable then o.clearSourceFreezes pub
  else (.ok false, o)

end MakerStateStore

/-- What is asked of an owner: of one of its views, of itself, or of the projections. -/
inductive OwnerOp where
  | view (v : ViewKey) (op : StoreOp)
  | freezeSources (reason : String)
  | clearSourceFreezes
  | releaseCompletedCycle
  | projectSourceFills (v : ViewKey) (reason : String) (fills : List SourceFill)
  | projectHedgeFills (reason : String) (fills : List (ViewKey × HedgeFill))

namespace MakerStateStore

def call (digest : String → String) (o : MakerStateStore) (pub : Publication) :
    OwnerOp → Except Raised Unit × MakerStateStore
  | .view v op => o.callView digest v pub op
  | .freezeSources reason => o.freezeExternal pub reason o.cfg.viewKeys
  | .clearSourceFreezes => let (result, o') := o.clearSourceFreezes pub
    (result.map fun _ => (), o')
  | .releaseCompletedCycle => let (result, o') := o.releaseCompletedCycle pub
    (result.map fun _ => (), o')
  | .projectSourceFills v reason fills =>
    o.transact pub (o.projectSourceFills digest v reason fills)
  | .projectHedgeFills reason fills => o.transact pub (o.projectHedgeFills reason fills)

def callAll (digest : String → String) (o : MakerStateStore)
    (calls : List (OwnerOp × Publication)) : MakerStateStore :=
  calls.foldl (fun o c => (o.call digest c.2 c.1).2) o

end MakerStateStore

/-- An owner that a process built and used, or that a later process loaded. -/
inductive Owned (digest : String → String) : MakerStateStore → Prop where
  | start {cfg : OwnerConfig} {b : Book} (valid : cfg.validate b = .ok ()) :
      Owned digest ⟨cfg, b, b, false⟩
  | call {o : MakerStateStore} (op : OwnerOp) (pub : Publication) : Owned digest o →
      Owned digest (o.call digest pub op).2
  | restart {o : MakerStateStore} : Owned digest o →
      Owned digest ⟨o.cfg, o.committed, o.committed, false⟩

/-- What a call keeps of a settled owner, whatever becomes of its publication. -/
structure Atomic {α : Type} (o : MakerStateStore)
    (act : Publication → Except Raised α × MakerStateStore) : Prop where
  settled : ∀ pub, Settled (act pub).2 ∧ (act pub).2.cfg = o.cfg
  failed : ∀ pub e, (act pub).1 = .error e → e ≠ .parentDirectorySyncError →
    (act pub).2.committed = o.committed
  synced : ∀ pub, (act pub).1 = .error .parentDirectorySyncError →
    (act pub).2.freezePublicationFailed = true ∧
      (act pub).2.committed = (act .published).2.committed ∧ ∃ a, (act .published).1 = .ok a
  revoked : ∀ pub, o.freezePublicationFailed = true → (act pub).2.freezePublicationFailed = true

namespace Atomic

variable {α β : Type} {o : MakerStateStore}

/-- A call that does not reach its publication. -/
theorem of_still (h : Settled o) {result : Except Raised α} (honest : NoSync result) :
    Atomic o fun _ => (result, o) where
  settled _ := ⟨h, rfl⟩
  failed _ _ _ _ := rfl
  synced _ raised := absurd raised honest
  revoked _ kept := kept

theorem persist (changed : MakerStateStore) (h : Settled o)
    (committed : changed.committed = o.committed) (cfg : changed.cfg = o.cfg)
    (flag : changed.freezePublicationFailed = o.freezePublicationFailed) :
    Atomic o fun pub => changed.persist pub := by
  have valid : changed.cfg.validate changed.committed = .ok () := by
    rw [committed, cfg]
    exact h.valid
  have stored := MakerStateStore.persist_settled valid
  have revoked : changed.candidate.freezePublicationFailed = o.freezePublicationFailed := by
    unfold MakerStateStore.candidate
    split <;> exact flag
  refine ⟨fun pub => ⟨(stored pub).1, (stored pub).2.trans cfg⟩, fun pub e raised other => ?_,
    fun pub raised => ?_, fun pub kept => ?_⟩
  · have taken := MakerStateStore.persist_restores raised other
    rw [← (stored pub).1.same, taken, committed]
  · unfold MakerStateStore.persist at raised ⊢
    dsimp only at raised ⊢
    split at raised
    · rename_i invalid
      simp only [Except.error.injEq] at raised
      exact absurd (raised ▸ invalid) (OwnerConfig.validate_noSync _ _)
    · cases pub with
      | published | failed => cases raised
      | parentSyncFailed => exact ⟨rfl, rfl, (), rfl⟩
  · rw [kept] at revoked
    unfold MakerStateStore.persist
    dsimp only
    split
    · exact revoked
    · cases pub with
      | published | failed => exact revoked
      | parentSyncFailed => rfl

/-- What the caller makes of the value does not matter. -/
theorem map {act : Publication → Except Raised α × MakerStateStore}
    {act' : Publication → Except Raised β × MakerStateStore} (h : Atomic o act)
    (f : Publication → α → β)
    (same : ∀ pub, act' pub = ((act pub).1.map (f pub), (act pub).2)) : Atomic o act' := by
  have raises : ∀ pub e, (act' pub).1 = .error e → (act pub).1 = .error e := by
    intro pub e raised
    rw [same] at raised
    cases result : (act pub).1 with
    | ok a => simp [result, Except.map] at raised
    | error e' => simpa [result, Except.map] using raised
  refine ⟨fun pub => ?_, fun pub e raised other => ?_, fun pub raised => ?_, fun pub kept => ?_⟩
  · rw [same]
    exact h.settled pub
  · have kept := h.failed pub e (raises pub e raised) other
    rwa [same]
  · obtain ⟨flag, stored, a, returned⟩ := h.synced pub (raises pub _ raised)
    rw [same, same]
    exact ⟨flag, stored, f .published a, by rw [returned]; rfl⟩
  · rw [same]
    exact h.revoked pub kept

end Atomic

namespace MakerStateStore

variable {o : MakerStateStore} {digest : String → String}

/-- A settled owner has nothing to take back that a failed publication left. -/
theorem commitView_reserves {α : Type} (h : Settled o) (v : ViewKey) (pub : Publication)
    (t : StoreState) (a : α) :
    o.commitView v pub (.reserves t a) = o.commitView v pub (.publishes t a) := by
  unfold commitView
  dsimp only
  cases result : (o.setView v t).persist pub with
  | mk outcome o' =>
    cases outcome with
    | ok => rfl
    | error e =>
      dsimp only
      split
      · rfl
      · rename_i other
        have taken := persist_restores (congrArg Prod.fst result) other
        rw [result] at taken
        rw [setView_committed (h.same.trans taken.symm)]

theorem commitView_atomic {α : Type} (h : Settled o) (v : ViewKey) {c : Change StoreState α}
    (honest : c.Honest) : Atomic o fun pub => o.commitView v pub c := by
  have publishes (t : StoreState) (a : α) :
      Atomic o fun pub => o.commitView v pub (.publishes t a) := by
    refine (Atomic.persist (o.setView v t) h rfl rfl rfl).map (fun _ _ => a)
      fun pub => ?_
    unfold commitView
    dsimp only
    cases (o.setView v t).persist pub with
    | mk outcome o' => cases outcome <;> rfl
  cases c with
  | raises e => exact .of_still h (never_error (honest e rfl))
  | keeps a => exact .of_still h (never_ok a)
  | publishes t a => exact publishes t a
  | reserves t a =>
    simp only [commitView_reserves h]
    exact publishes t a

/-- A failed freeze leaves its mark. -/
theorem freezeExternal_atomic (h : Settled o) (reason : String) (views : List ViewKey) :
    Atomic o fun pub => o.freezeExternal pub reason views := by
  unfold freezeExternal
  split
  · exact .of_still h (never_error nofun)
  · split
    · have stored : Atomic o fun pub => ((o.setFreezes reason views).setBook
          { (o.setFreezes reason views).book with cycleFreezeOnly := false }).persist pub :=
        .persist _ h rfl rfl rfl
      dsimp only
      generalize (o.setFreezes reason views).setBook
        { (o.setFreezes reason views).book with cycleFreezeOnly := false } = frozen at stored ⊢
      refine ⟨fun pub => ?_, fun pub e raised other => ?_, fun pub raised => ?_,
        fun pub kept => ?_⟩
      · have settled := stored.settled pub
        split <;> rename_i result <;> rw [result] at settled
        · exact settled
        · exact ⟨⟨settled.1.same, settled.1.valid⟩, settled.2⟩
      · have kept := stored.failed pub e
        split at raised <;> rename_i result <;> rw [result] at kept
        · cases raised
        · exact kept raised other
      · have synced := stored.synced pub
        split at raised <;> rename_i result <;> rw [result] at synced
        · cases raised
        · obtain ⟨-, committed, a, returned⟩ := synced raised
          cases published : frozen.persist .published with
          | mk outcome o' =>
            rw [published] at committed returned
            cases outcome with
            | ok => exact ⟨rfl, committed, (), rfl⟩
            | error => cases returned
      · have revoked := stored.revoked pub kept
        split <;> rename_i result
        · rwa [result] at revoked
        · rfl
    · exact .of_still h (never_ok ())

theorem clearSourceFreezes_atomic (h : Settled o) :
    Atomic o fun pub => o.clearSourceFreezes pub := by
  unfold clearSourceFreezes
  split
  · exact .of_still h (never_ok false)
  · refine (Atomic.persist (o.setBook { o.book with
        views := fun v => freezeView (o.view v) none
        cycleFreezeOnly := false }) h rfl rfl rfl).map (fun _ _ => true) fun pub => ?_
    cases (o.setBook { o.book with
        views := fun v => freezeView (o.view v) none
        cycleFreezeOnly := false }).persist pub with
    | mk outcome o' => cases outcome <;> rfl

/-- The other owner differs in its book alone. -/
def Rebooked (o changed : MakerStateStore) : Prop := ∃ b, changed = o.setBook b

theorem Rebooked.refl (o : MakerStateStore) : Rebooked o o := ⟨o.book, rfl⟩

theorem Rebooked.trans {o changed later : MakerStateStore} (first : Rebooked o changed)
    (second : Rebooked changed later) : Rebooked o later := by
  obtain ⟨b, rfl⟩ := first
  obtain ⟨b', rfl⟩ := second
  exact ⟨b', rfl⟩

theorem transact_atomic (h : Settled o) {change : Except Raised MakerStateStore}
    (honest : NoSync change) (rebooked : ∀ changed, change = .ok changed → Rebooked o changed) :
    Atomic o fun pub => o.transact pub change := by
  cases change with
  | error e => exact .of_still h (never_error fun same => honest (congrArg _ same))
  | ok changed =>
    obtain ⟨b, rfl⟩ := rebooked _ rfl
    refine (Atomic.persist (o.setBook b) h rfl rfl rfl).map (fun _ _ => ())
      fun pub => ?_
    unfold transact
    dsimp only
    cases result : (o.setBook b).persist pub with
    | mk outcome o' =>
      cases outcome with
      | ok => rfl
      | error e =>
        dsimp only
        split
        · rfl
        · rename_i other
          have taken := persist_restores (congrArg Prod.fst result) other
          rw [result] at taken
          have same : o'.book = o.book := taken.trans h.same.symm
          rw [← same]
          rfl

theorem applySourceFill_noSync (digest : String → String) (o : MakerStateStore) (v : ViewKey)
    (fill : SourceFill) (blockedReason : Option String) :
    NoSync (o.applySourceFill digest v fill blockedReason) := by
  unfold applySourceFill
  split
  · exact never_ok _
  · split
    · exact never_ok _
    · refine never_bind (StoreState.recordSourceFill_noSync _ _ _ _) fun _ => ?_
      dsimp only
      exact never_bind (StoreState.openHedgeIntent_noSync _ _ _ _ _ _) fun _ => never_pure _

theorem applySourceFill_rebooked {filled : MakerStateStore} {v : ViewKey} {fill : SourceFill}
    {blockedReason : Option String} {intent : Option HedgeIntent}
    (h : o.applySourceFill digest v fill blockedReason = .ok (filled, intent)) :
    Rebooked o filled := by
  unfold applySourceFill at h
  split at h
  · cases h
    exact .refl _
  · split at h
    · cases h
      exact .refl _
    · simp only [bind_eq_ok, Prod.exists, pure_eq_ok, Prod.mk.injEq] at h
      obtain ⟨recorded, -, opened, intent', -, rfl, -⟩ := h
      exact ⟨_, rfl⟩

theorem reserveSourceFill_atomic (digest : String → String) (h : Settled o) (v : ViewKey)
    (fill : SourceFill) :
    Atomic o fun pub => o.reserveSourceFill digest v pub fill := by
  unfold reserveSourceFill
  split
  · exact .of_still h (never_ok none)
  · have honest := applySourceFill_noSync digest (o.freezeForFill fill) v fill none
    cases applied : (o.freezeForFill fill).applySourceFill digest v fill none with
    | error e =>
      exact .of_still h (never_error fun same => honest (applied.trans (congrArg _ same)))
    | ok result =>
      obtain ⟨filled, intent⟩ := result
      have rebooked : Rebooked o filled :=
        Rebooked.trans ⟨(o.freezeForFill fill).book, rfl⟩ (applySourceFill_rebooked applied)
      have stored : Atomic o fun pub => o.transact pub (.ok filled) :=
        transact_atomic h (never_ok _) (by rintro _ ⟨⟩; exact rebooked)
      refine stored.map (fun _ _ => intent) fun pub => ?_
      unfold transact
      dsimp only
      cases filled.persist pub with
      | mk outcome o' => cases outcome <;> rfl

theorem projectSourceFills_atomic (h : Settled o) (v : ViewKey) (reason : String)
    (fills : List SourceFill) :
    Atomic o fun pub => o.transact pub (o.projectSourceFills digest v reason fills) := by
  refine transact_atomic h ?_ fun changed projected => ?_
  · exact never_foldlM (fun _ fill => never_map (applySourceFill_noSync digest _ v fill _)) _ _
  · refine foldlM_invariant (P := Rebooked o) (fun u fill u' kept turn => ?_) ⟨_, rfl⟩ projected
    obtain ⟨⟨filled, opened⟩, applied, rfl⟩ := map_eq_ok.1 turn
    exact kept.trans (applySourceFill_rebooked applied)

theorem projectHedgeFills_atomic (h : Settled o) (reason : String)
    (fills : List (ViewKey × HedgeFill)) :
    Atomic o fun pub => o.transact pub (o.projectHedgeFills reason fills) := by
  refine transact_atomic h ?_ fun changed projected => ?_
  · exact never_foldlM (fun _ fill => never_bind (StoreState.applyFill_noSync _ _ _)
      fun _ => never_pure _) _ _
  · refine foldlM_invariant (P := Rebooked o) (fun u fill u' kept turn => ?_) ⟨_, rfl⟩ projected
    simp only [bind_eq_ok, pure_eq_ok] at turn
    obtain ⟨filled, -, rfl⟩ := turn
    exact kept.trans ⟨_, rfl⟩

theorem clearSourceFreeze_atomic (h : Settled o) :
    Atomic o fun pub => o.clearSourceFreeze pub := by
  unfold clearSourceFreeze clearSourceFreezes
  split
  · dsimp only
    split
    · exact .of_still h (never_error nofun)
    · exact .of_still h (never_ok ())
  · refine (Atomic.persist (o.setBook { o.book with
        views := fun v => freezeView (o.view v) none
        cycleFreezeOnly := false }) h rfl rfl rfl).map (fun _ _ => ()) fun pub => ?_
    cases (o.setBook { o.book with
        views := fun v => freezeView (o.view v) none
        cycleFreezeOnly := false }).persist pub with
    | mk outcome o' => cases outcome <;> rfl

theorem callView_atomic (h : Settled o) (v : ViewKey) (op : StoreOp) :
    Atomic o fun pub => o.callView digest v pub op := by
  cases op with
  | freezeSourceSubmissions reason => exact freezeExternal_atomic h reason [v]
  | clearSourceFreeze => exact clearSourceFreeze_atomic h
  | recoverForStart =>
    exact commitView_atomic h v (StoreState.recoverForStart_honest _).discard
  | beginSource request => exact commitView_atomic h v (StoreState.beginSource_honest _ _ _)
  | updateSourceStatus order status =>
    refine commitView_atomic h v fun e raised => ?_
    unfold StoreState.updateSourceStatus at raised
    split at raised <;> cases raised
  | confirmSourceReconciled =>
    exact commitView_atomic h v (StoreState.confirmSourceReconciled_honest _ _)
  | markSourceUnknown order reason =>
    refine commitView_atomic h v (c := (o.view v).markSourceUnknown order reason) ?_
    nofun
  | reserveSourceFill fill =>
    refine (reserveSourceFill_atomic digest h v fill).map (fun _ _ => ()) fun pub => ?_
    unfold callView
    dsimp only
    cases o.reserveSourceFill digest v pub fill with
    | mk outcome o' => cases outcome <;> rfl
  | bindHedgeOrder => exact commitView_atomic h v (StoreState.bindHedgeOrder_honest _ _ _)
  | bindHedgePlan => exact commitView_atomic h v (StoreState.bindHedgePlan_honest _ _ _).discard
  | blockHedgeIntent => exact commitView_atomic h v (StoreState.blockHedgeIntent_honest _ _ _)
  | updateHedgeStatus =>
    exact commitView_atomic h v (StoreState.updateHedgeStatus_honest _ _ _ _)
  | applyHedgeFill => exact commitView_atomic h v (StoreState.applyHedgeFill_honest _ _).discard
  | projectSourceFills | projectHedgeFills => exact .of_still h (never_error nofun)
  | settleCompleted => exact .of_still h (never_ok ())

theorem call_atomic (digest : String → String) (h : Settled o) (op : OwnerOp) :
    Atomic o fun pub => o.call digest pub op := by
  cases op with
  | view v op => exact callView_atomic h v op
  | freezeSources reason => exact freezeExternal_atomic h reason _
  | clearSourceFreezes =>
    exact (clearSourceFreezes_atomic h).map (fun _ _ => ()) fun _ => rfl
  | releaseCompletedCycle =>
    have released : Atomic o fun pub => o.releaseCompletedCycle pub := by
      unfold releaseCompletedCycle
      split
      · exact clearSourceFreezes_atomic h
      · exact .of_still h (never_ok false)
    exact released.map (fun _ _ => ()) fun _ => rfl
  | projectSourceFills v reason fills => exact projectSourceFills_atomic h v reason fills
  | projectHedgeFills reason fills => exact projectHedgeFills_atomic h reason fills

end MakerStateStore

theorem owned_settled {digest : String → String} {o : MakerStateStore} (h : Owned digest o) :
    Settled o := by
  induction h with
  | start valid => exact ⟨rfl, valid⟩
  | call op pub _ ih => exact ((MakerStateStore.call_atomic _ ih op).settled pub).1
  | restart _ ih => exact ⟨rfl, ih.valid⟩

theorem Owned.callAll {digest : String → String} {o : MakerStateStore} (h : Owned digest o)
    (calls : List (OwnerOp × Publication)) : Owned digest (o.callAll digest calls) := by
  induction calls generalizing o with
  | nil => exact h
  | cons c calls ih => exact ih (.call c.1 c.2 h)

theorem revoked_callAll {digest : String → String} {o : MakerStateStore} (h : Owned digest o)
    (revoked : o.freezePublicationFailed = true) (calls : List (OwnerOp × Publication)) :
    (o.callAll digest calls).freezePublicationFailed = true := by
  induction calls generalizing o with
  | nil => exact revoked
  | cons c calls ih =>
    exact ih (.call c.1 c.2 h)
      ((MakerStateStore.call_atomic digest (owned_settled h) c.1).revoked c.2 revoked)

/-- A revoked owner gives no freeze back while its process lives. -/
theorem revoked_for_good {digest : String → String} {o : MakerStateStore} (h : Owned digest o)
    (revoked : o.freezePublicationFailed = true) (later : List (OwnerOp × Publication))
    (pub : Publication) :
    ((o.callAll digest later).clearSourceFreezes pub).1 = .ok false := by
  unfold MakerStateStore.clearSourceFreezes
  rw [if_pos (.inl (revoked_callAll h revoked later))]

/-- A request to stop, of a view or of the whole owner. -/
def OwnerOp.Freezes : OwnerOp → Prop
  | .view _ (.freezeSourceSubmissions reason) | .freezeSources reason => reason ≠ ""
  | _ => False

theorem freezeExternal_marks {o : MakerStateStore} {pub : Publication} {reason : String}
    {views : List ViewKey} {e : Raised} (named : reason ≠ "")
    (raised : (o.freezeExternal pub reason views).1 = .error e) :
    (o.freezeExternal pub reason views).2.freezePublicationFailed = true := by
  unfold MakerStateStore.freezeExternal at raised ⊢
  rw [if_neg named] at raised ⊢
  split at raised
  · rename_i fresh
    rw [if_pos fresh]
    dsimp only at raised ⊢
    split at raised
    · cases raised
    · rfl
  · cases raised

theorem freeze_marks {digest : String → String} {o : MakerStateStore} {op : OwnerOp}
    {pub : Publication} {e : Raised} (freezes : op.Freezes)
    (raised : (o.call digest pub op).1 = .error e) :
    (o.call digest pub op).2.freezePublicationFailed = true := by
  cases op with
  | view v op =>
    cases op with
    | freezeSourceSubmissions reason => exact freezeExternal_marks freezes raised
    | _ => exact freezes.elim
  | freezeSources reason => exact freezeExternal_marks freezes raised
  | _ => exact freezes.elim

/-- Whatever a call of an owner raises, memory is a published and valid book: the last one, or
the call's own where only its directory sync failed. A freeze or a directory sync that failed is
not given back in this process. -/
theorem owner_atomic {digest : String → String} {o : MakerStateStore} (h : Owned digest o)
    (op : OwnerOp) (pub : Publication) :
    (∀ e, (o.call digest pub op).1 = .error e → e ≠ .parentDirectorySyncError →
      (o.call digest pub op).2.book = o.committed ∧
        (o.call digest pub op).2.committed = o.committed) ∧
    ((o.call digest pub op).1 = .error .parentDirectorySyncError →
      (o.call digest .published op).1 = .ok () ∧
      (o.call digest pub op).2.book = (o.call digest .published op).2.committed ∧
        (o.call digest pub op).2.committed = (o.call digest .published op).2.committed) ∧
    (∀ e, (o.call digest pub op).1 = .error e →
      (o.call digest pub op).2.cfg.validate (o.call digest pub op).2.book = .ok ()) ∧
    (∀ e, (o.call digest pub op).1 = .error e → op.Freezes ∨ e = .parentDirectorySyncError →
      ∀ later again, (((o.call digest pub op).2.callAll digest later).clearSourceFreezes again).1 =
        .ok false) := by
  have atomic := MakerStateStore.call_atomic digest (owned_settled h) op
  obtain ⟨⟨same, valid⟩, -⟩ := atomic.settled pub
  refine ⟨fun e raised other => ?_, fun raised => ?_, fun e _ => ?_, fun e raised stops => ?_⟩
  · have kept := atomic.failed pub e raised other
    exact ⟨same.trans kept, kept⟩
  · obtain ⟨-, stored, ⟨⟩, returned⟩ := atomic.synced pub raised
    exact ⟨returned, same.trans stored, stored⟩
  · rw [same]
    exact valid
  · refine revoked_for_good (.call op pub h) ?_
    obtain freezes | rfl := stops
    · exact freeze_marks freezes raised
    · exact (atomic.synced pub raised).1

/-- A shared owner before its first order. -/
def freshOwner : MakerStateStore where
  cfg := {
    sharedStrategyIds := some ("MAKER-1", "TAKER-1")
    residualLimit := 0
    carryRoute := none
    legacySources := none
    legacyOrders := [] }
  book := .empty
  committed := .empty
  freezePublicationFailed := false

theorem freshOwner_owned (digest : String → String) : Owned digest freshOwner :=
  .start (by decide +kernel)

/-- A pause that is not written leaves the empty book, and no later pause is given back. -/
theorem failed_pause_atomic :
    (freshOwner.call id .failed (.freezeSources "operator stop")).2.book = Book.empty ∧
    (((freshOwner.call id .failed (.freezeSources "operator stop")).2.callAll id
      [(.freezeSources "again", .published)]).clearSourceFreezes .published).1 = .ok false := by
  have promised := owner_atomic (freshOwner_owned id) (.freezeSources "operator stop") .failed
  have raised : (freshOwner.call id .failed (.freezeSources "operator stop")).1 =
      .error .osError := by
    decide +kernel
  exact ⟨(promised.1 _ raised nofun).1, promised.2.2.2 _ raised (.inl (by simp [OwnerOp.Freezes]))
    [(.freezeSources "again", .published)] .published⟩

end ArbNautilus.Store
