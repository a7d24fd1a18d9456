import ArbNautilus.Store.LateFill

namespace ArbNautilus.Store

open Base

/-- A halt that no source reconciliation releases. -/
def HardHalt (halt : Option String) : Prop :=
  ∃ reason, halt = some reason ∧ ∀ order, reason ≠ sourceReconcileReason order

/-- What no call takes back: an unresolved obligation and a hard halt. -/
structure Sticks (s t : StoreState) : Prop where
  unresolved : ∀ k intent, s.hedgeIntents.get? k = some intent → intent.status.Unresolved →
    ∃ later, t.hedgeIntents.get? k = some later ∧ later.status.Unresolved
  hard : HardHalt s.haltReason → HardHalt t.haltReason

/-- A completed intent is reopened only beside a halt. -/
def KeepsCompleted (s t : StoreState) : Prop :=
  ∀ k intent, s.hedgeIntents.get? k = some intent → intent.status = .completed →
    (∃ later, t.hedgeIntents.get? k = some later ∧ later.status = .completed) ∨
      t.haltReason ≠ none

/-- The calls that keep all of it. Startup settlement is not among them. -/
def StoreOp.Guarded (digest : String → String) (s : StoreState) : StoreOp → Prop
  | .markSourceUnknown _ reason =>
    HardHalt s.haltReason → ∀ order, reason ≠ sourceReconcileReason order
  | .reserveSourceFill fill => fill.fillKey ∉ s.seenSourceFills →
    ∀ intent ∈ s.hedgeIntents.get? ("hedge-" ++ digest fill.fillKey),
      ¬intent.status.Unresolved ∧ intent.status ≠ .completed
  | .updateHedgeStatus clientOrderId status _ =>
    ∀ intent ∈ s.intentForHedgeOrder clientOrderId, intent.status = .completed →
      ¬isRejectedAttempt intent clientOrderId →
      status = .completed ∨ status = .rejected ∨ status = .unknown ∨ s.haltReason ≠ none
  | .applyHedgeFill fill => fill.fillKey ∉ s.seenHedgeFills →
    ∀ intent ∈ s.intentForHedgeOrder fill.clientOrderId, intent.status = .completed →
      ¬isRejectedAttempt intent fill.clientOrderId → intent.hedgePlan = [] →
      intent.hedgeQuantityOunces ≤ intent.hedgeFilledOunces + fill.fillOunces ∨
        s.haltReason ≠ none
  | .settleCompleted _ _ => False
  | _ => True

/-- A reason that does not begin like a reconciliation's is never released by one. -/
theorem hardHalt_of_head {reason : String} (apart : reason.toList.head? ≠ some 's') :
    HardHalt (some reason) := by
  refine ⟨reason, rfl, fun order same => apart ?_⟩
  rw [same, sourceReconcileReason, String.toList_append, String.toList_append]
  rfl

theorem HardHalt.ne_none {halt : Option String} (h : HardHalt halt) : halt ≠ none := by
  obtain ⟨reason, rfl, -⟩ := h
  exact Option.some_ne_none reason

theorem HardHalt.getD {halt : Option String} (h : HardHalt halt) (reason : String) :
    HardHalt (some (halt.getD reason)) := by
  obtain ⟨standing, rfl, apart⟩ := h
  exact ⟨standing, rfl, apart⟩

theorem hardHalt_conflict (clientOrderId fact : String) :
    HardHalt (some (StoreState.conflictReason clientOrderId fact)) := by
  refine hardHalt_of_head ?_
  unfold StoreState.conflictReason
  have lead : "archived rejected hedge ".toList.head? = some 'a' := by decide +kernel
  simp only [String.toList_append, List.head?_append, lead]
  simp

namespace Sticks

variable {s t u : StoreState}

theorem refl (s : StoreState) : Sticks s s := ⟨fun _ intent found held => ⟨intent, found, held⟩, id⟩

theorem trans (first : Sticks s t) (second : Sticks t u) : Sticks s u := by
  refine ⟨fun k intent found held => ?_, second.hard ∘ first.hard⟩
  obtain ⟨later, stored, held⟩ := first.unresolved k intent found held
  exact second.unresolved k later stored held

/-- An unresolved intent keeps the gate shut. -/
theorem refuses (h : Sticks s t) {k : String} {intent : HedgeIntent}
    (found : s.hedgeIntents.get? k = some intent) (held : intent.status.Unresolved)
    (admissible : Bool) : t.canSubmitSource admissible = false := by
  obtain ⟨later, stored, held⟩ := h.unresolved k intent found held
  have open' : later.status ≠ .completed := by
    intro completed
    rw [completed] at held
    revert held
    decide
  have mixed : t.allCompleted = false := by
    rw [StoreState.allCompleted, List.all_eq_false]
    exact ⟨later, (Dict.mem_values_iff _ _).2 ⟨k, stored⟩, by simpa using open'⟩
  simp [StoreState.canSubmitSource, mixed]

theorem of_same (intents : t.hedgeIntents = s.hedgeIntents)
    (hard : HardHalt s.haltReason → HardHalt t.haltReason) : Sticks s t := by
  refine ⟨fun k intent found held => ⟨intent, ?_, held⟩, hard⟩
  rwa [intents]

/-- One intent is replaced or opened; an unresolved one may not be lost. -/
theorem of_set {k : String} {replaced : HedgeIntent}
    (intents : t.hedgeIntents = s.hedgeIntents.set k replaced)
    (kept : ∀ intent ∈ s.hedgeIntents.get? k, intent.status.Unresolved →
      replaced.status.Unresolved)
    (hard : HardHalt s.haltReason → HardHalt t.haltReason) : Sticks s t := by
  refine ⟨fun k' intent found held => ?_, hard⟩
  rw [intents, Dict.get?_set]
  by_cases same : k = k'
  · subst same
    exact ⟨replaced, if_pos rfl, kept intent found held⟩
  · exact ⟨intent, by rwa [if_neg same], held⟩

end Sticks

theorem KeepsCompleted.of_same {s t : StoreState} (intents : t.hedgeIntents = s.hedgeIntents) :
    KeepsCompleted s t := by
  intro k intent found completed
  refine .inl ⟨intent, ?_, completed⟩
  rwa [intents]

theorem KeepsCompleted.of_set {s t : StoreState} {k : String} {replaced : HedgeIntent}
    (intents : t.hedgeIntents = s.hedgeIntents.set k replaced)
    (kept : ∀ intent ∈ s.hedgeIntents.get? k, intent.status = .completed →
      replaced.status = .completed ∨ t.haltReason ≠ none) : KeepsCompleted s t := by
  intro k' intent found completed
  rw [intents, Dict.get?_set]
  by_cases same : k = k'
  · subst same
    refine (kept intent found completed).imp_left fun still => ⟨replaced, if_pos rfl, still⟩
  · exact .inl ⟨intent, by rwa [if_neg same], completed⟩

theorem KeepsCompleted.of_halt {s t : StoreState} (halted : t.haltReason ≠ none) :
    KeepsCompleted s t :=
  fun _ _ _ _ => .inr halted

namespace StoreState

variable {s t : StoreState} {digest : String → String}

theorem recordSourceFill_halt {record : SourceOrderRecord} {fill : SourceFill}
    {blockedReason : Option String} (h : s.recordSourceFill record fill blockedReason = .ok t) :
    t.haltReason = s.haltReason ∨
      blockedReason = none ∧ s.haltReason = some (sourceReconcileReason fill.clientOrderId) := by
  simp only [recordSourceFill, bind_unit_eq_ok, raiseIf_eq_ok] at h
  obtain ⟨-, -, h⟩ := h
  split at h
  · rename_i released
    simp only [pure_eq_ok] at h
    subst h
    by_cases waiting : s.haltReason = some (sourceReconcileReason fill.clientOrderId)
    · exact .inr ⟨released.1, waiting⟩
    · exact .inl (if_neg waiting)
  · simp only [pure_eq_ok] at h
    exact .inl (h ▸ rfl)

/-- A source fill leaves the intents alone or opens one, PENDING unless it is projected. -/
theorem applySourceFill_effect {fill : SourceFill} {blockedReason : Option String}
    {opened : Option HedgeIntent}
    (h : s.applySourceFill digest fill blockedReason = .ok (t, opened)) :
    (t.hedgeIntents = s.hedgeIntents ∨
      fill.fillKey ∉ s.seenSourceFills ∧ ∃ intent : HedgeIntent,
        intent.status = (if blockedReason.isSome then .blocked else .pending) ∧
        t.hedgeIntents = s.hedgeIntents.set ("hedge-" ++ digest fill.fillKey) intent) ∧
    (t.haltReason = s.haltReason ∨
      blockedReason = none ∧ s.haltReason = some (sourceReconcileReason fill.clientOrderId)) := by
  unfold applySourceFill at h
  split at h
  · cases h
    exact ⟨.inl rfl, .inl rfl⟩
  · rename_i unseen
    split at h
    · cases h
      exact ⟨.inl rfl, .inl rfl⟩
    · simp only [bind_eq_ok] at h
      obtain ⟨recorded, made, h⟩ := h
      have halt := recordSourceFill_halt made
      obtain ⟨-, -, -, -, -, intents, -⟩ := recordSourceFill_eq_ok made
      obtain ⟨-, rfl, -⟩ | ⟨-, intent, fields, -, rfl⟩ := openHedgeIntent_eq_ok h
      · exact ⟨.inl intents, halt⟩
      · refine ⟨.inr ⟨unseen, intent, by rw [fields]; rfl, ?_⟩, halt⟩
        change recorded.hedgeIntents.set intent.intentId intent = _
        rw [intents, fields]
        rfl

theorem reserveSourceFill_sticks {fill : SourceFill} {opened : Option HedgeIntent}
    (fresh : fill.fillKey ∉ s.seenSourceFills →
      ∀ intent ∈ s.hedgeIntents.get? ("hedge-" ++ digest fill.fillKey),
        ¬intent.status.Unresolved ∧ intent.status ≠ .completed)
    (h : s.applySourceFill digest fill none = .ok (t, opened)) :
    Sticks s t ∧ KeepsCompleted s t := by
  obtain ⟨intents, halt⟩ := applySourceFill_effect h
  have hard : HardHalt s.haltReason → HardHalt t.haltReason := by
    rintro standing
    obtain same | ⟨-, soft⟩ := halt
    · rwa [same]
    · obtain ⟨reason, is_reason, apart⟩ := standing
      rw [is_reason] at soft
      exact absurd (Option.some.inj soft) (apart _)
  obtain same | ⟨unseen, intent, -, set⟩ := intents
  · exact ⟨.of_same same hard, .of_same same⟩
  · exact ⟨.of_set set (fun old found held => absurd held (fresh unseen old found).1) hard,
      .of_set set fun old found completed => absurd completed (fresh unseen old found).2⟩

theorem projectSourceFill_sticks {fill : SourceFill} {reason : String}
    {opened : Option HedgeIntent}
    (h : s.applySourceFill digest fill (some reason) = .ok (t, opened)) :
    Sticks s t ∧ t.haltReason = s.haltReason := by
  obtain ⟨intents, same | ⟨absent, -⟩⟩ := applySourceFill_effect h
  · refine ⟨?_, same⟩
    have hard : HardHalt s.haltReason → HardHalt t.haltReason := fun standing => same ▸ standing
    obtain unchanged | ⟨-, intent, blocked, set⟩ := intents
    · exact .of_same unchanged hard
    · exact .of_set set (fun _ _ _ => .inl blocked) hard
  · cases absent

theorem advanceFields_sticks (intent : HedgeIntent) (fill : HedgeFill)
    (halt blockedReason : Option String) :
    (intent.status.Unresolved →
      (advanceFields intent fill halt blockedReason).1.status.Unresolved) ∧
    (HardHalt halt → HardHalt (advanceFields intent fill halt blockedReason).2) ∧
    (halt ≠ none → (advanceFields intent fill halt blockedReason).2 ≠ none) := by
  unfold advanceFields
  split
  · refine ⟨fun _ => .inl rfl, fun standing => ?_, fun standing => ?_⟩
    · cases blockedReason with
      | none =>
        apply hardHalt_of_head
        simp [String.toList_append]
      | some reason => exact standing.getD reason
    · cases blockedReason <;> simp
  · rename_i free
    have resolved : ¬intent.status.Unresolved := fun held => free (.inr held)
    split
    · exact ⟨fun held => absurd held resolved, id, id⟩
    · split
      · refine ⟨fun held => absurd held resolved, fun _ => ?_, nofun⟩
        apply hardHalt_of_head
        simp [String.toList_append]
      · split
        · refine ⟨fun held => absurd held resolved, fun _ => ?_, nofun⟩
          apply hardHalt_of_head
          simp [String.toList_append]
        · exact ⟨fun held => absurd held resolved, id, id⟩

theorem advanceFields_completed {intent : HedgeIntent} {fill : HedgeFill}
    {halt blockedReason : Option String} (completed : intent.status = .completed)
    (guarded : blockedReason = none → intent.hedgePlan = [] →
      intent.hedgeQuantityOunces ≤ intent.hedgeFilledOunces + fill.fillOunces ∨ halt ≠ none) :
    (advanceFields intent fill halt blockedReason).1.status = .completed ∨
      (advanceFields intent fill halt blockedReason).2 ≠ none := by
  unfold advanceFields
  split
  · right
    cases blockedReason <;> simp
  · rename_i free
    have unheld : blockedReason = none := by
      by_contra given
      exact free (.inl (Option.isSome_iff_ne_none.2 given))
    split
    · rename_i unplanned
      refine (guarded unheld unplanned).imp (fun whole => ?_) id
      simp [addFill, whole]
    · rename_i planned
      have last := ((intent.sound.planned planned).completed completed).1
      simp [last]

/-- A hedge fill, live or projected, keeps what sticks. -/
theorem applyFill_sticks {fill : HedgeFill} {blockedReason : Option String} {changed : Bool}
    (keyed : ∀ k intent, s.hedgeIntents.get? k = some intent → intent.intentId = k)
    (h : s.applyFill fill blockedReason = .ok (t, changed)) :
    Sticks s t ∧ (s.haltReason ≠ none → t.haltReason ≠ none) := by
  obtain ⟨rfl, -⟩ | ⟨intent, blocked, -, found, -, fields, rfl⟩ |
    ⟨intent, advanced, -, found, -, positive, fields, -, rfl⟩ := applyFill_eq_ok h
  · exact ⟨.refl _, id⟩
  · refine ⟨.of_set rfl (fun _ _ _ => .inl ?_) fun _ => hardHalt_conflict _ _, nofun⟩
    rw [fields]
  · obtain ⟨-, k, stored⟩ := intentForHedgeOrder_eq_some found
    obtain ⟨held, hard, halted⟩ :=
      advanceFields_sticks intent fill s.haltReason blockedReason
    refine ⟨.of_set rfl (fun old was unresolved => ?_) hard, halted⟩
    rw [keyed k intent stored, stored] at was
    obtain rfl := Option.some.inj was
    rw [fields]
    exact held unresolved

theorem applyHedgeFill_completed {fill : HedgeFill}
    (keyed : ∀ k intent, s.hedgeIntents.get? k = some intent → intent.intentId = k)
    (guarded : StoreOp.Guarded digest s (.applyHedgeFill fill))
    (h : s.applyFill fill none = .ok (t, true)) : KeepsCompleted s t := by
  obtain ⟨-, absent, -⟩ | ⟨intent, blocked, -, found, -, fields, rfl⟩ |
    ⟨intent, advanced, unseen, found, current, positive, fields, -, rfl⟩ := applyFill_eq_ok h
  · cases absent
  · exact .of_halt nofun
  · obtain ⟨-, k, stored⟩ := intentForHedgeOrder_eq_some found
    refine .of_set rfl fun old was completed => ?_
    rw [keyed k intent stored, stored] at was
    obtain rfl := Option.some.inj was
    rw [fields]
    exact advanceFields_completed completed fun _ unplanned =>
      guarded unseen intent found completed current unplanned

theorem updateHedgeStatus_sticks {clientOrderId : String} {status : ObligationStatus}
    {nativeStatus : Option String}
    (keyed : ∀ k intent, s.hedgeIntents.get? k = some intent → intent.intentId = k)
    (guarded : StoreOp.Guarded digest s (.updateHedgeStatus clientOrderId status nativeStatus))
    (h : (s.updateHedgeStatus clientOrderId status nativeStatus).Yields t) :
    Sticks s t ∧ KeepsCompleted s t := by
  obtain ⟨intent, updated, found, intents, -, -, -, -, how⟩ := updateHedgeStatus_yields h
  obtain ⟨-, k, stored⟩ := intentForHedgeOrder_eq_some found
  have only : ∀ old ∈ s.hedgeIntents.get? intent.intentId, old = intent := by
    intro old was
    rw [keyed k intent stored, stored] at was
    exact (Option.some.inj was).symm
  obtain ⟨-, halt, fields⟩ | ⟨current, resolved, halt, fields⟩ := how
  · refine ⟨.of_set intents (fun _ _ _ => .inl ?_) fun _ => ?_, .of_halt ?_⟩
    · rw [fields]
    · rw [halt]
      exact hardHalt_conflict _ _
    · rw [halt]
      nofun
  · refine ⟨.of_set intents (fun old was held => ?_) fun standing => ?_, .of_set intents
      fun old was completed => ?_⟩
    · exact absurd (only old was ▸ held) resolved
    · rw [halt]
      split
      · refine hardHalt_of_head ?_
        simp [String.toList_append]
      · exact standing
    · rw [only old was] at completed
      rw [fields, halt]
      obtain rfl | rfl | rfl | standing := guarded intent found completed current
      · exact .inl rfl
      · exact .inr nofun
      · exact .inr nofun
      · right
        split
        · nofun
        · exact standing

theorem recoverForStart_sticks
    (keyed : ∀ k intent, s.hedgeIntents.get? k = some intent → intent.intentId = k)
    (h : s.recoverForStart.Yields t) : Sticks s t ∧ KeepsCompleted s t := by
  obtain ⟨reason, halted⟩ := recoverForStart_halt h
  obtain ⟨orders, v, halt, -, mapped, rfl⟩ := recoverForStart_yields h
  have kept : Sticks s v := by
    refine mapIntents_of_keyed (P := fun u => Sticks s u) (s := { s with sourceOrders := orders })
      (fun u intent replaced member sticks found made => sticks.trans (.of_set rfl
        (fun _ _ _ => .inr (.inr ?_)) id)) keyed (.of_same rfl id)
      (List.filter_sublist.trans List.filter_sublist) mapped
    rw [IntentFields.make_eq_ok made]
  refine ⟨⟨kept.unresolved, fun standing => ?_⟩, .of_halt ?_⟩
  · rw [halted]
    exact standing.getD reason
  · rw [halted]
    nofun

theorem hold_sticks (s : StoreState) (reason : String) : Sticks s (s.hold reason) :=
  .of_same rfl fun standing => standing.getD reason

theorem projectSourceFills_sticks {reason : String} {fills : List SourceFill}
    (h : (s.projectSourceFills digest reason fills).Yields t) :
    Sticks s t ∧ KeepsCompleted s t := by
  unfold projectSourceFills at h
  split at h
  · simp at h
  · rename_i applied
    rw [Change.yields_reserves] at h
    subst h
    have kept := foldlM_invariant (P := fun u => Sticks s u ∧ u.haltReason ≠ none)
      (fun u fill v kept turn => by
        obtain ⟨⟨v', opened⟩, added, rfl⟩ := map_eq_ok.1 turn
        obtain ⟨sticks, halt⟩ := projectSourceFill_sticks added
        exact ⟨kept.1.trans sticks, halt ▸ kept.2⟩)
      ⟨hold_sticks s reason, nofun⟩ applied
    exact ⟨kept.1, .of_halt kept.2⟩

theorem projectHedgeFills_sticks {reason : String} {fills : List HedgeFill}
    (index : OrderIndex s.hedgeIntents) (h : (s.projectHedgeFills reason fills).Yields t) :
    Sticks s t ∧ KeepsCompleted s t := by
  unfold projectHedgeFills at h
  split at h
  · simp at h
  · rename_i applied
    rw [Change.yields_reserves] at h
    subst h
    have kept := foldlM_invariant
      (P := fun u => OrderIndex u.hedgeIntents ∧ Sticks s u ∧ u.haltReason ≠ none)
      (fun u fill v kept turn => by
        obtain ⟨⟨v', changed⟩, added, rfl⟩ := map_eq_ok.1 turn
        obtain ⟨sticks, halted⟩ := applyFill_sticks kept.1.keyed added
        exact ⟨applyFill_index kept.1 added, kept.2.1.trans sticks, halted kept.2.2⟩)
      ⟨index, hold_sticks s reason, nofun⟩ applied
    exact ⟨kept.2.1, .of_halt kept.2.2⟩

/-- What one guarded call hands to its publication. -/
theorem change_sticks {op : StoreOp} (index : OrderIndex s.hedgeIntents)
    (guarded : op.Guarded digest s) (h : (op.change digest s).Yields t) :
    Sticks s t ∧ KeepsCompleted s t := by
  cases op with
  | freezeSourceSubmissions =>
    simp only [StoreOp.change, freezeSourceSubmissions] at h
    split_ifs at h <;> simp at h
    exact h ▸ ⟨.of_same rfl id, .of_same rfl⟩
  | clearSourceFreeze =>
    simp only [StoreOp.change, clearSourceFreeze] at h
    split_ifs at h <;> simp at h
    exact h ▸ ⟨.of_same rfl id, .of_same rfl⟩
  | recoverForStart => exact recoverForStart_sticks index.keyed (by simpa [StoreOp.change] using h)
  | beginSource =>
    simp only [StoreOp.change, beginSource] at h
    split at h <;> simp at h
    exact h ▸ ⟨.of_same rfl id, .of_same rfl⟩
  | updateSourceStatus =>
    simp only [StoreOp.change, updateSourceStatus] at h
    split at h <;> simp at h
    subst h
    refine ⟨.of_same rfl fun standing => ?_, .of_same rfl⟩
    simpa [standing.ne_none] using standing
  | confirmSourceReconciled order =>
    simp only [StoreOp.change, confirmSourceReconciled] at h
    split at h
    · simp at h
    · split_ifs at h <;> simp at h
      subst h
      refine ⟨.of_same rfl fun standing => ?_, .of_same rfl⟩
      obtain ⟨reason, halt, apart⟩ := standing
      exact ⟨reason, by simp [releaseSource, halt, apart order], apart⟩
  | markSourceUnknown =>
    simp only [StoreOp.change, markSourceUnknown, Change.yields_publishes] at h
    subst h
    exact ⟨.of_same rfl fun standing => ⟨_, rfl, guarded standing⟩, .of_same rfl⟩
  | reserveSourceFill fill =>
    simp only [StoreOp.change, Change.discard_yields, reserveSourceFill] at h
    split at h
    · simp at h
    · split at h
      · simp at h
      · rename_i applied
        rw [Change.yields_reserves] at h
        exact h ▸ reserveSourceFill_sticks guarded applied
  | bindHedgeOrder =>
    obtain ⟨intent, bound, found, pending, -, -, -, fields, rfl⟩ := bindHedgeOrder_yields h
    refine ⟨.of_set rfl (fun old was held => ?_) id, .of_set rfl fun old was completed => ?_⟩
    · obtain rfl := Option.some.inj (found.symm.trans was)
      rw [pending] at held
      simp [ObligationStatus.Unresolved] at held
    · obtain rfl := Option.some.inj (found.symm.trans was)
      rw [pending] at completed
      cases completed
  | bindHedgePlan =>
    rw [StoreOp.change, Change.discard_yields] at h
    obtain ⟨intent, planned, found, -, pending, -, -, -, fields, rfl⟩ := bindHedgePlan_yields h
    have same : planned.status = intent.status := by rw [fields]
    refine ⟨.of_set rfl (fun old was held => ?_) id, .of_set rfl fun old was completed => ?_⟩
    · obtain rfl := Option.some.inj (found.symm.trans was)
      rwa [same]
    · obtain rfl := Option.some.inj (found.symm.trans was)
      exact .inl (same.trans completed)
  | blockHedgeIntent =>
    obtain ⟨intent, blocked, found, -, fields, rfl⟩ := blockHedgeIntent_yields h
    refine ⟨.of_set rfl (fun _ _ _ => .inl ?_) fun _ => ?_, .of_halt (by rintro ⟨⟩)⟩
    · rw [fields]
    · refine hardHalt_of_head ?_
      simp [String.toList_append]
  | updateHedgeStatus => exact updateHedgeStatus_sticks index.keyed guarded h
  | applyHedgeFill =>
    rw [StoreOp.change, Change.discard_yields] at h
    obtain ⟨-, applied⟩ := applyHedgeFill_yields h
    exact ⟨(applyFill_sticks index.keyed applied).1,
      applyHedgeFill_completed index.keyed guarded applied⟩
  | projectSourceFills => exact projectSourceFills_sticks h
  | projectHedgeFills => exact projectHedgeFills_sticks index h
  | settleCompleted => exact guarded.elim

end StoreState

/-- One call of a store in use, with the fate of its publication. -/
structure Call where
  op : StoreOp
  pub : Publication

namespace JsonStateStore

def call (digest : String → String) (store : JsonStateStore) (c : Call) : JsonStateStore :=
  (store.commit c.pub (c.op.change digest store.memory)).2

def callAll (digest : String → String) (store : JsonStateStore) (calls : List Call) :
    JsonStateStore :=
  calls.foldl (call digest) store

/-- A property of every call of a sequence and of the store it meets. -/
def EachCall (digest : String → String) (P : JsonStateStore → Call → Prop)
    (store : JsonStateStore) : List Call → Prop
  | [] => True
  | c :: calls => P store c ∧ EachCall digest P (store.call digest c) calls

end JsonStateStore

theorem call_sticks {digest : String → String} {store : JsonStateStore}
    (reach : Reachable digest store) {c : Call} (guarded : c.op.Guarded digest store.memory) :
    Sticks store.memory (store.call digest c).memory ∧
      KeepsCompleted store.memory (store.call digest c).memory := by
  obtain same | ⟨t, yields, saved | kept⟩ :=
    store.commit_cases c.pub (c.op.change digest store.memory)
  · rw [JsonStateStore.call, same]
    exact ⟨.refl _, .of_same rfl⟩
  · rw [JsonStateStore.call, saved]
    exact StoreState.change_sticks (reachable_index reach) guarded yields
  · rw [JsonStateStore.call, kept]
    exact StoreState.change_sticks (reachable_index reach) guarded yields

/-- A source fill whose unplanned hedge its first trade completes. -/
def filledHedge : List StoreOp := [
  .beginSource { clientOrderId := "O-1", side := .buy, quantityOunces := 2 },
  .reserveSourceFill ⟨"O-1|V-1|T-1", "O-1", "T-1", .buy, 2⟩,
  .bindHedgeOrder "hedge-d31eeeaaf150156a8ad133b4" "H-1",
  .applyHedgeFill ⟨"H-1", "D-1", 2⟩]

/-- A status that arrives after the fill reopens the intent, and no halt says so. -/
theorem late_status_reopens : ∃ store, Reachable (fun _ => "d31eeeaaf150156a8ad133b4") store ∧
    ¬KeepsCompleted store.memory (store.call (fun _ => "d31eeeaaf150156a8ad133b4")
      ⟨.updateHedgeStatus "H-1" .accepted none, .published⟩).memory := by
  refine ⟨JsonStateStore.empty.run (fun _ => "d31eeeaaf150156a8ad133b4") filledHedge,
    Reachable.start.run _, fun kept => ?_⟩
  have was : ((JsonStateStore.empty.run (fun _ => "d31eeeaaf150156a8ad133b4")
      filledHedge).memory.hedgeIntents.get? "hedge-d31eeeaaf150156a8ad133b4").any
        (·.status = .completed) := by
    decide +kernel
  obtain ⟨intent, found, completed⟩ := (Option.any_eq_true _ _).1 was
  obtain ⟨later, stored, still⟩ | halted := kept _ intent found (by simpa using completed)
  · have now : (((JsonStateStore.empty.run (fun _ => "d31eeeaaf150156a8ad133b4")
        filledHedge).call (fun _ => "d31eeeaaf150156a8ad133b4")
          ⟨.updateHedgeStatus "H-1" .accepted none, .published⟩).memory.hedgeIntents.get?
            "hedge-d31eeeaaf150156a8ad133b4").all (·.status = .accepted) := by
      decide +kernel
    rw [stored] at now
    simp [still] at now
  · exact halted (by decide +kernel)

/-- A store in use fails closed as long as no late status or partial fill reopens a completed
intent, no text passes for a reconciliation's and no two fills share a digest. -/
theorem store_fails_closed {digest : String → String} {store : JsonStateStore}
    (reach : Reachable digest store) (calls : List Call)
    (guarded : store.EachCall digest (fun before c => c.op.Guarded digest before.memory) calls) :
    (∀ k intent, store.memory.hedgeIntents.get? k = some intent → intent.status.Unresolved →
      (∃ later, (store.callAll digest calls).memory.hedgeIntents.get? k = some later ∧
        later.status.Unresolved) ∧
      (store.callAll digest calls).memory.canSubmitSource
        (store.callAll digest calls).memory.sourceBalanceIsAdmissible = false) ∧
    (HardHalt store.memory.haltReason → (store.callAll digest calls).memory.haltReason ≠ none) ∧
    store.EachCall digest (fun before c =>
      KeepsCompleted before.memory (before.call digest c).memory) calls := by
  have kept : Sticks store.memory (store.callAll digest calls).memory ∧
      store.EachCall digest (fun before c =>
        KeepsCompleted before.memory (before.call digest c).memory) calls := by
    induction calls generalizing store with
    | nil => exact ⟨.refl _, trivial⟩
    | cons c calls ih =>
      obtain ⟨first, rest⟩ := guarded
      obtain ⟨sticks, completed⟩ := call_sticks reach first
      obtain ⟨later, each⟩ := ih (.next reach (.call store c.op c.pub)) rest
      exact ⟨sticks.trans later, completed, each⟩
  obtain ⟨sticks, each⟩ := kept
  exact ⟨fun k intent found held => ⟨sticks.unresolved k intent found held,
    sticks.refuses found held _⟩, fun standing => (sticks.hard standing).ne_none, each⟩

/-- A rejected hedge, then a late acceptance that is not written and a fill that is. -/
theorem rejected_fails_closed :
    ((JsonStateStore.empty.run (fun _ => "d31eeeaaf150156a8ad133b4") (filledHedge.take 3 ++
      [.updateHedgeStatus "H-1" .rejected none])).callAll (fun _ => "d31eeeaaf150156a8ad133b4")
        [⟨.updateHedgeStatus "H-1" .accepted none, .failed⟩,
          ⟨.applyHedgeFill ⟨"H-1", "D-1", 2⟩, .published⟩]).memory.haltReason ≠ none := by
  refine (store_fails_closed (Reachable.start.run _) _ ?_).2.1 ?_
  · refine ⟨?_, ?_, trivial⟩ <;> unfold StoreOp.Guarded <;> decide +kernel
  · have halt : (JsonStateStore.empty.run (fun _ => "d31eeeaaf150156a8ad133b4") (filledHedge.take 3
        ++ [.updateHedgeStatus "H-1" .rejected none])).memory.haltReason =
          some "hedge H-1 has unresolved status REJECTED" := by
      decide +kernel
    rw [halt]
    exact hardHalt_of_head (by decide +kernel)

end ArbNautilus.Store
