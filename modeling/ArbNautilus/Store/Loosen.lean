import ArbNautilus.Store.LateFill

namespace ArbNautilus.Store

open Base

/-- A state that lets the next source order in. -/
def StoreState.Admits (s : StoreState) : Prop :=
  s.canSubmitSource s.sourceBalanceIsAdmissible = true

instance (s : StoreState) : Decidable s.Admits :=
  inferInstanceAs (Decidable (_ = true))

/-- The calls that let a source order in and keep their change in memory when its publication
fails, each with what else must hold for the gate to open. -/
def StoreOp.Loosens (s : StoreState) : StoreOp → Prop
  | .clearSourceFreeze =>
    s.sourceFreezeReason ≠ none ∧ s.cycleEvidenceComplete s.sourceBalanceIsAdmissible = true
  | .updateSourceStatus clientOrderId status =>
    status ∈ ["DENIED", "FILLED", "REJECTED"] ∧ s.activeSourceOrderId = some clientOrderId ∧
      s.knowsSourceOrder clientOrderId ∧ s.haltReason = none ∧ s.sourceFreezeReason = none ∧
      s.sourceBalanceIsAdmissible = true ∧ s.allCompleted = true
  | .updateHedgeStatus clientOrderId status _ =>
    status = .completed ∧ s.haltReason = none ∧ s.sourceFreezeReason = none ∧
      s.activeSourceOrderId = none ∧ s.sourceBalanceIsAdmissible = true ∧
      ∃ intent ∈ s.intentForHedgeOrder clientOrderId,
        ¬isRejectedAttempt intent clientOrderId ∧ ¬intent.status.Unresolved ∧
        intent.status ≠ .completed ∧
        { intent.toIntentFields with status := .completed : IntentFields }.postInit = .ok () ∧
        ∀ other ∈ s.hedgeIntents.values, other.intentId ≠ intent.intentId →
          other.status = .completed
  | _ => False

instance (s : StoreState) : (op : StoreOp) → Decidable (op.Loosens s)
  | .clearSourceFreeze => inferInstanceAs (Decidable (_ ∧ _))
  | .updateSourceStatus _ _ => inferInstanceAs (Decidable (_ ∧ _))
  | .updateHedgeStatus _ _ _ => inferInstanceAs (Decidable (_ ∧ _))
  | .freezeSourceSubmissions _ | .recoverForStart | .beginSource _ | .confirmSourceReconciled _
  | .markSourceUnknown _ _ | .reserveSourceFill _ | .bindHedgeOrder _ _ | .bindHedgePlan _ _
  | .blockHedgeIntent _ _ | .applyHedgeFill _ | .projectSourceFills _ _ | .projectHedgeFills _ _
  | .settleCompleted _ _ => .isFalse id

namespace StoreState

theorem allCompleted_iff (s : StoreState) : s.allCompleted = true ↔
    ∀ k intent, s.hedgeIntents.get? k = some intent → intent.status = .completed := by
  simp only [allCompleted, List.all_eq_true, Dict.mem_values_iff, decide_eq_true_eq,
    forall_exists_index]
  exact forall_comm

theorem admits_iff (s : StoreState) :
    s.Admits ↔ s.haltReason = none ∧ s.sourceFreezeReason = none ∧ s.activeSourceOrderId = none ∧
      s.sourceBalanceIsAdmissible = true ∧
      ∀ k intent, s.hedgeIntents.get? k = some intent → intent.status = .completed := by
  rw [← allCompleted_iff]
  unfold Admits canSubmitSource
  rw [decide_eq_true_iff]

variable {s t : StoreState} {digest : String → String}

theorem halted_refuses {reason : String} (halted : s.haltReason = some reason) : ¬s.Admits := by
  rw [admits_iff, halted]
  nofun

/-- An intent set to a status that is not COMPLETED closes the gate. -/
theorem unfinished_refuses {k : String} {intent : HedgeIntent}
    (found : s.hedgeIntents.get? k = some intent) (unfinished : intent.status ≠ .completed) :
    ¬s.Admits := by
  rw [admits_iff]
  rintro ⟨-, -, -, -, completed⟩
  exact unfinished (completed k intent found)

theorem clearSourceFreeze_admits (h : s.clearSourceFreeze s.sourceBalanceIsAdmissible =
    .publishes t ()) (admits : t.Admits) :
    s.Admits ∨ StoreOp.Loosens s .clearSourceFreeze := by
  unfold clearSourceFreeze at h
  split at h
  · rename_i evidence
    cases h
    by_cases free : s.sourceFreezeReason = none
    · left
      rwa [← free] at admits
    · exact .inr ⟨free, evidence⟩
  · cases h

theorem updateSourceStatus_admits {clientOrderId status : String}
    (h : s.updateSourceStatus clientOrderId status = .publishes t ()) (admits : t.Admits) :
    s.Admits ∨ StoreOp.Loosens s (.updateSourceStatus clientOrderId status) := by
  unfold updateSourceStatus at h
  split at h
  · cases h
  · rename_i record found
    cases h
    rw [admits_iff] at admits
    obtain ⟨halt, freeze, active, balance, completed⟩ := admits
    have halt : s.haltReason = none := by
      dsimp only at halt
      split at halt
      · cases halt
      · exact halt
    by_cases released : status ∈ ["DENIED", "FILLED", "REJECTED"] ∧
        s.activeSourceOrderId = some clientOrderId
    · exact .inr ⟨released.1, released.2, by simp [knowsSourceOrder, found], halt, freeze, balance,
        s.allCompleted_iff.2 completed⟩
    · rw [if_neg released] at active
      exact .inl (s.admits_iff.2 ⟨halt, freeze, active, balance, completed⟩)

/-- An intent that owes what it owed leaves the balance as it was. -/
theorem setIntent_balance {k : String} {intent : HedgeIntent} (replaced : HedgeIntent)
    (stored : s.hedgeIntents.get? k = some intent)
    (owed : outstanding replaced = outstanding intent) :
    (s.setIntent k replaced).sourceBalanceIsAdmissible = s.sourceBalanceIsAdmissible := by
  have total : (s.hedgeIntents.set k replaced).total outstanding =
      s.hedgeIntents.total outstanding := by
    rw [Dict.total_set_of_get? _ stored, owed]
    ring
  unfold sourceBalanceIsAdmissible
  rw [decide_eq_decide]
  simp only [roundingResidual, netUnhedged, setIntent, total]

/-- A status update opens the gate only by completing the last unfinished intent. -/
theorem updateHedgeStatus_admits {clientOrderId : String} {status : ObligationStatus}
    {nativeStatus : Option String}
    (keyed : ∀ k intent, s.hedgeIntents.get? k = some intent → intent.intentId = k)
    (h : s.updateHedgeStatus clientOrderId status nativeStatus = .publishes t ())
    (admits : t.Admits) :
    s.Admits ∨ StoreOp.Loosens s (.updateHedgeStatus clientOrderId status nativeStatus) := by
  unfold updateHedgeStatus at h
  split at h
  · cases h
  · rename_i intent found
    obtain ⟨k, stored⟩ := (intentForHedgeOrder_eq_some found).2
    have key := keyed k intent stored
    split at h
    · split at h
      · split at h
        · cases h
        · rename_i held changed archived
          obtain ⟨blocked, -, rfl⟩ := holdRejectedAttempt_eq_ok archived
          split at h
          · cases h
            exact absurd admits (halted_refuses rfl)
          · cases h
      · cases h
    · rename_i current
      split at h
      · cases h
      · rename_i resolved
        split at h
        · cases h
        · rename_i updated made
          have fields := IntentFields.make_eq_ok made
          cases h
          rw [admits_iff] at admits
          obtain ⟨halt, freeze, active, balance, completed⟩ := admits
          have finished := completed k updated (by simp [setIntent, key])
          have completes : status = .completed := by
            rw [← finished, fields]
          subst completes
          have others : ∀ k' other, s.hedgeIntents.get? k' = some other → k' ≠ k →
              other.status = .completed := by
            intro k' other there apart
            refine completed k' other ?_
            simpa [setIntent, key, Dict.get?_set_of_ne _ apart.symm] using there
          have balance : s.sourceBalanceIsAdmissible = true := by
            rw [← setIntent_balance updated (key ▸ stored)
              (by simp [outstanding, fields])]
            exact balance
          by_cases was : intent.status = .completed
          · left
            refine s.admits_iff.2 ⟨by simpa using halt, freeze, active, balance,
              fun k' other there => ?_⟩
            by_cases same : k' = k
            · rw [same, stored] at there
              exact Option.some.inj there ▸ was
            · exact others k' other there same
          · right
            refine ⟨rfl, by simpa using halt, freeze, active, balance, intent, found, current,
              resolved, was, ?_, fun other member apart => ?_⟩
            · rw [← fields]
              exact updated.checked
            · obtain ⟨k', there⟩ := (Dict.mem_values_iff _ _).1 member
              refine others k' other there fun same => apart ?_
              rw [keyed k' other there, same, key]

/-- No call but the loosening ones opens the gate and leaves it to the publication. -/
theorem publishes_admits {op : StoreOp}
    (keyed : ∀ k intent, s.hedgeIntents.get? k = some intent → intent.intentId = k)
    (h : op.change digest s = .publishes t ()) (admits : t.Admits) : s.Admits ∨ op.Loosens s := by
  cases op with
  | freezeSourceSubmissions reason =>
    simp only [StoreOp.change, freezeSourceSubmissions] at h
    split_ifs at h
    cases h
    simp [admits_iff] at admits
  | clearSourceFreeze => exact clearSourceFreeze_admits h admits
  | recoverForStart =>
    have yields : s.recoverForStart.discard.Yields t := Change.yields_of_publishes h
    rw [Change.discard_yields] at yields
    obtain ⟨reason, halted⟩ := recoverForStart_halt yields
    exact absurd admits (halted_refuses halted)
  | beginSource request =>
    simp only [StoreOp.change, beginSource] at h
    split at h
    · cases h
    · cases h
      simp [admits_iff] at admits
  | updateSourceStatus => exact updateSourceStatus_admits h admits
  | confirmSourceReconciled =>
    simp only [StoreOp.change, confirmSourceReconciled] at h
    split at h
    · cases h
    · split_ifs at h
  | markSourceUnknown =>
    simp only [StoreOp.change, markSourceUnknown] at h
    cases h
    exact absurd admits (halted_refuses rfl)
  | reserveSourceFill =>
    simp only [StoreOp.change, reserveSourceFill] at h
    split at h
    · cases h
    · split at h <;> cases h
  | bindHedgeOrder intentId clientOrderId =>
    obtain ⟨intent, bound, -, -, -, -, -, fields, rfl⟩ :=
      bindHedgeOrder_yields (Change.yields_of_publishes h)
    exact absurd admits (unfinished_refuses (Dict.get?_set_self ..) (by simp [fields]))
  | bindHedgePlan intentId plan =>
    have yields : (s.bindHedgePlan intentId plan).discard.Yields t := Change.yields_of_publishes h
    rw [Change.discard_yields] at yields
    obtain ⟨intent, planned, -, -, pending, -, -, -, fields, rfl⟩ := bindHedgePlan_yields yields
    exact absurd admits (unfinished_refuses (Dict.get?_set_self ..) (by simp [fields, pending]))
  | blockHedgeIntent intentId reason =>
    obtain ⟨intent, blocked, -, -, -, rfl⟩ :=
      blockHedgeIntent_yields (Change.yields_of_publishes h)
    exact absurd admits (halted_refuses rfl)
  | updateHedgeStatus => exact updateHedgeStatus_admits keyed h admits
  | applyHedgeFill =>
    simp only [StoreOp.change, applyHedgeFill] at h
    split at h
    · cases h
    · split at h
      · cases h
      · split at h <;> cases h
  | projectSourceFills =>
    simp only [StoreOp.change, projectSourceFills] at h
    split at h <;> cases h
  | projectHedgeFills =>
    simp only [StoreOp.change, projectHedgeFills] at h
    split at h <;> cases h
  | settleCompleted =>
    simp only [StoreOp.change, settleCompleted] at h
    split at h <;> cases h

/-- A loosening call does open the gate. -/
theorem Loosens.publishes (digest : String → String) {op : StoreOp}
    (keyed : ∀ k intent, s.hedgeIntents.get? k = some intent → intent.intentId = k)
    (h : op.Loosens s) : ∃ t, op.change digest s = .publishes t () ∧ t.Admits := by
  cases op with
  | clearSourceFreeze =>
    obtain ⟨-, evidence⟩ := h
    refine ⟨_, if_pos evidence, ?_⟩
    simp only [cycleEvidenceComplete, decide_eq_true_eq, allCompleted_iff] at evidence
    obtain ⟨halt, active, -, completed, balance⟩ := evidence
    exact (admits_iff _).2 ⟨halt, rfl, active, balance, completed⟩
  | updateSourceStatus clientOrderId status =>
    obtain ⟨releases, active, known, halt, freeze, balance, completed⟩ := h
    obtain ⟨record, found⟩ := Option.ne_none_iff_exists'.1 known
    refine ⟨_, by simp only [StoreOp.change, updateSourceStatus, found]; rfl, ?_⟩
    rw [allCompleted_iff] at completed
    refine (admits_iff _).2 ⟨?_, freeze, if_pos ⟨releases, active⟩, balance, completed⟩
    simp only [List.mem_cons, List.not_mem_nil, or_false] at releases
    obtain rfl | rfl | rfl := releases <;> simp [halt]
  | updateHedgeStatus clientOrderId status nativeStatus =>
    obtain ⟨rfl, halt, freeze, active, balance, intent, found, current, resolved, -, checked,
      others⟩ := h
    obtain ⟨updated, made, fields⟩ := ((IntentFields.postInit_eq_ok _).1 checked).make
    obtain ⟨k, stored⟩ := (intentForHedgeOrder_eq_some found).2
    have key := keyed k intent stored
    rw [Option.mem_def] at found
    refine ⟨_, by simp only [StoreOp.change, updateHedgeStatus, found, if_neg current,
      if_neg resolved, made]; rfl, ?_⟩
    refine (admits_iff _).2 ⟨by simpa using halt, freeze, active, ?_, fun k' other there => ?_⟩
    · have kept := setIntent_balance updated (key.symm ▸ stored)
        (by simp [outstanding, fields])
      exact kept.trans balance
    · change (s.hedgeIntents.set intent.intentId updated).get? k' = some other at there
      rw [Dict.get?_set] at there
      split at there
      · obtain rfl := Option.some.inj there
        rw [fields]
      · rename_i apart
        refine others other ((Dict.mem_values_iff _ _).2 ⟨k', there⟩) ?_
        rw [keyed k' other there]
        exact fun same => apart same.symm
  | _ => exact absurd h id

end StoreState

/-- What happens to a store: a call and the fate of its publication, or a restart. -/
inductive Move where
  | call (op : StoreOp) (pub : Publication)
  | restart

namespace JsonStateStore

def take (digest : String → String) (store : JsonStateStore) : Move → JsonStateStore
  | .call op pub => (store.commit pub (op.change digest store.memory)).2
  | .restart => ⟨store.file, store.file⟩

def takeAll (digest : String → String) (store : JsonStateStore) (moves : List Move) :
    JsonStateStore :=
  moves.foldl (take digest) store

/-- Where memory lets a source order in, so does the file. -/
def NoLooser (store : JsonStateStore) : Prop := store.memory.Admits → store.file.Admits

end JsonStateStore

/-- A failed publication of a loosening call that the file does not allow. -/
def Move.Loosens (store : JsonStateStore) : Move → Prop
  | .call op .failed => op.Loosens store.memory ∧ ¬store.file.Admits
  | _ => False

theorem Reachable.takeAll {digest : String → String} {store : JsonStateStore}
    (h : Reachable digest store) (moves : List Move) :
    Reachable digest (store.takeAll digest moves) := by
  induction moves generalizing store with
  | nil => exact h
  | cons move moves ih =>
    cases move with
    | call op pub => exact ih (.next h (.call store op pub))
    | restart => exact ih (.next h (.restart store))

/-- One move keeps memory no looser than the file exactly when it is not a failed loosening. -/
theorem take_noLooser_iff {digest : String → String} {store : JsonStateStore}
    (reach : Reachable digest store) (h : store.NoLooser) (move : Move) :
    (store.take digest move).NoLooser ↔ ¬move.Loosens store := by
  have keyed := (reachable_index reach).keyed
  cases move with
  | restart => exact iff_of_true id id
  | call op pub =>
    cases pub with
    | published | parentSyncFailed =>
      refine iff_of_true ?_ id
      dsimp only [JsonStateStore.take]
      cases change : op.change digest store.memory with
      | raises | keeps => exact h
      | publishes | reserves => exact id
    | failed =>
      constructor
      · rintro kept ⟨loosens, shut⟩
        obtain ⟨t, publishes, admits⟩ := StoreState.Loosens.publishes digest keyed loosens
        simp only [JsonStateStore.take, publishes] at kept
        exact shut (kept admits)
      · intro tight
        dsimp only [JsonStateStore.take]
        cases change : op.change digest store.memory with
        | raises | keeps | reserves => exact h
        | publishes t =>
          intro admits
          obtain already | loosens := StoreState.publishes_admits keyed change admits
          · exact h already
          · by_contra shut
            exact tight ⟨loosens, shut⟩

/-- A freeze that was published, then cleared by a call whose write fails. -/
theorem failed_clear_admits :
    ∃ store op, Reachable id store ∧
      (store.commit .failed (StoreOp.change id store.memory op)).2.memory.Admits ∧
      ¬(store.commit .failed (StoreOp.change id store.memory op)).2.file.Admits := by
  refine ⟨JsonStateStore.empty.run id [.freezeSourceSubmissions "operator stop"],
    .clearSourceFreeze, Reachable.start.run _, ?_, ?_⟩
  · decide +kernel
  · decide +kernel

/-- Along a run of calls and restarts memory is never looser than the file exactly when no
loosening call fails to publish while the file is shut. -/
theorem memory_noLooser_iff (digest : String → String) (moves : List Move) :
    (∀ before, before <+: moves → (JsonStateStore.empty.takeAll digest before).NoLooser) ↔
      ∀ before move, before ++ [move] <+: moves →
        ¬move.Loosens (JsonStateStore.empty.takeAll digest before) := by
  have next : ∀ before move, JsonStateStore.empty.takeAll digest (before ++ [move]) =
      (JsonStateStore.empty.takeAll digest before).take digest move := by
    intro before move
    simp [JsonStateStore.takeAll]
  constructor
  · intro kept before move part
    have now := kept _ part
    rw [next] at now
    exact Iff.mp (take_noLooser_iff (Reachable.start.takeAll before)
      (kept before ((List.prefix_append ..).trans part)) move) now
  · intro tight before part
    induction before using List.reverseRecOn with
    | nil => exact id
    | append_singleton before move ih =>
      rw [next]
      exact Iff.mpr (take_noLooser_iff (Reachable.start.takeAll before)
        (ih ((List.prefix_append ..).trans part)) move) (tight before move part)

end ArbNautilus.Store
