import ArbNautilus.Store.Opened

namespace ArbNautilus.Store

open Base

/-- Each call returns, its publication succeeding. -/
def JsonStateStore.Returns (digest : String → String) : JsonStateStore → List StoreOp → Prop
  | _, [] => True
  | store, op :: ops =>
    (store.commit .published (op.change digest store.memory)).1 = .ok () ∧
      JsonStateStore.Returns digest (store.commit .published (op.change digest store.memory)).2 ops

theorem JsonStateStore.run_append (digest : String → String) (store : JsonStateStore)
    (ops later : List StoreOp) :
    store.run digest (ops ++ later) = (store.run digest ops).run digest later := by
  rw [run, List.foldl_append]
  rfl

theorem JsonStateStore.returns_append {digest : String → String} {store : JsonStateStore}
    {ops later : List StoreOp} : store.Returns digest (ops ++ later) ↔
      store.Returns digest ops ∧ (store.run digest ops).Returns digest later := by
  induction ops generalizing store with
  | nil => simp [Returns, run]
  | cons op ops ih =>
    rw [List.cons_append, Returns, Returns, ih, and_assoc]
    rfl

/-- The hedge the store stands for, SELL positive. -/
def StoreState.owed (s : StoreState) : ℚ := s.hedgeIntents.total Ledger.signedQuantity

/-- What a source fill leaves of the order it belongs to and of the books. -/
structure Booked (digest : String → String) (s : StoreState) (fill : SourceFill)
    (record : SourceOrderRecord) (t : StoreState) : Prop where
  orders : t.sourceOrders = s.sourceOrders.set fill.clientOrderId { record with
    filledOunces := record.filledOunces + fill.fillOunces
    status := StoreState.fillStatus record.quantityOunces (record.filledOunces + fill.fillOunces) }
  seen : t.seenSourceFills = insert fill.fillKey s.seenSourceFills
  net : t.netUnhedgedOunces = carry s.netUnhedgedOunces fill.signedFill
  owed : t.owed = s.owed + nearestEven (s.netUnhedgedOunces + fill.signedFill)
  intents : ∀ k, k ≠ "hedge-" ++ digest fill.fillKey → t.hedgeIntents.get? k = s.hedgeIntents.get? k
  short : record.filledOunces + fill.fillOunces < record.quantityOunces →
    t.activeSourceOrderId = s.activeSourceOrderId ∧ t.haltReason = s.haltReason
  full : record.quantityOunces ≤ record.filledOunces + fill.fillOunces →
    s.activeSourceOrderId = some fill.clientOrderId → t.activeSourceOrderId = none ∧
      t.haltReason = if s.haltReason = some (sourceReconcileReason fill.clientOrderId) then none
        else s.haltReason

theorem openHedgeIntent_lane {digest : String → String} {s t : StoreState}
    {record : SourceOrderRecord} {fill : SourceFill} {blockedReason : Option String} {rounded : ℤ}
    {opened : Option HedgeIntent}
    (h : s.openHedgeIntent digest record fill blockedReason rounded = .ok (t, opened)) :
    t.sourceOrders = s.sourceOrders ∧ t.activeSourceOrderId = s.activeSourceOrderId ∧
      t.haltReason = s.haltReason := by
  obtain ⟨-, rfl, -⟩ | ⟨-, intent, -, -, rfl⟩ := StoreState.openHedgeIntent_eq_ok h <;>
    exact ⟨rfl, rfl, rfl⟩

theorem reserveSourceFill_books (digest : String → String) {s : StoreState} {fill : SourceFill}
    {record : SourceOrderRecord} (found : s.sourceOrders.get? fill.clientOrderId = some record)
    (side : record.side = fill.sourceSide) (positive : 0 < fill.fillOunces)
    (ticketed : Ticketed record) (unseen : fill.fillKey ∉ s.seenSourceFills)
    (fresh : s.hedgeIntents.get? ("hedge-" ++ digest fill.fillKey) = none) :
    ∃ t, (StoreOp.reserveSourceFill fill).change digest s = .reserves t () ∧
      Booked digest s fill record t := by
  obtain ⟨t, opened, applied⟩ :=
    applySourceFill_total digest unseen found side positive ticketed.1 ticketed.2
  obtain ⟨-, -, filled⟩ := applySourceFill_filled unseen found applied
  refine ⟨t, ?_, ?_⟩
  · have accepted :
        ¬(fill.fillKey ∈ s.seenSourceFills ∨ ¬s.knowsSourceOrder fill.clientOrderId) := by
      simp [unseen, StoreState.knowsSourceOrder, found]
    rw [StoreOp.change, StoreState.reserveSourceFill, if_neg accepted, applied]
    rfl
  · have lane : t.sourceOrders = s.sourceOrders.set fill.clientOrderId { record with
        filledOunces := record.filledOunces + fill.fillOunces
        status := StoreState.fillStatus record.quantityOunces
          (record.filledOunces + fill.fillOunces) } ∧
        (record.filledOunces + fill.fillOunces < record.quantityOunces →
          t.activeSourceOrderId = s.activeSourceOrderId ∧ t.haltReason = s.haltReason) ∧
        (record.quantityOunces ≤ record.filledOunces + fill.fillOunces →
          s.activeSourceOrderId = some fill.clientOrderId → t.activeSourceOrderId = none ∧
          t.haltReason = if s.haltReason = some (sourceReconcileReason fill.clientOrderId) then
            none else s.haltReason) := by
      rw [StoreState.applySourceFill, if_neg unseen] at applied
      simp only [found, bind_eq_ok] at applied
      obtain ⟨recorded, recording, applied⟩ := applied
      obtain ⟨orders, active, halt⟩ := openHedgeIntent_lane applied
      simp only [StoreState.recordSourceFill, bind_unit_eq_ok, raiseIf_eq_ok] at recording
      obtain ⟨-, -, recording⟩ := recording
      rw [orders, active, halt]
      split at recording <;> rename_i ends <;> simp only [pure_eq_ok] at recording <;>
        subst recording
      · have whole : record.quantityOunces ≤ record.filledOunces + fill.fillOunces := by
          by_contra short
          simp [StoreState.fillStatus, short] at ends
        refine ⟨rfl, fun short => absurd whole (not_le.2 short), fun _ current => ⟨?_, rfl⟩⟩
        exact if_pos current
      · refine ⟨rfl, fun _ => ⟨rfl, rfl⟩, fun whole current => ?_⟩
        exact absurd ⟨trivial, by simp [StoreState.fillStatus, whole], current⟩ ends
    refine ⟨lane.1, filled.seenSource, filled.residual, ?_, fun k apart => ?_, lane.2.1, lane.2.2⟩
    · unfold StoreState.owed
      obtain ⟨zero, intents⟩ | ⟨intent, intents, fields, -⟩ := filled.intents
      · have none : nearestEven (s.netUnhedgedOunces + fill.signedFill) = 0 := zero
        rw [intents, none, Int.cast_zero, add_zero]
      · have id : intent.intentId = "hedge-" ++ digest fill.fillKey := by rw [fields]; rfl
        rw [intents, id, Dict.total_set_of_get?_none _ fresh, signedQuantity_opened fields]
        rfl
    · obtain ⟨-, intents⟩ | ⟨intent, intents, fields, -⟩ := filled.intents
      · rw [intents]
      · have id : intent.intentId = "hedge-" ++ digest fill.fillKey := by rw [fields]; rfl
        rw [intents, id, Dict.get?_set_of_ne _ apart.symm]

/-- What a set of fills of one order adds up to. -/
def totalOunces (fills : List SourceFill) : ℚ := (fills.map (·.fillOunces)).sum

/-- Fills an order still has room for, none seen before and no two under one digest. -/
structure Due (digest : String → String) (s : StoreState) (cid : String)
    (record : SourceOrderRecord) (fills : List SourceFill) : Prop where
  each : ∀ fill ∈ fills, fill.clientOrderId = cid ∧ fill.sourceSide = record.side ∧
    0 < fill.fillOunces ∧ fill.fillKey ∉ s.seenSourceFills ∧
    s.hedgeIntents.get? ("hedge-" ++ digest fill.fillKey) = none
  keys : (fills.map (·.fillKey)).Nodup
  digests : (fills.map fun fill => digest fill.fillKey).Nodup
  within : record.filledOunces + totalOunces fills ≤ record.quantityOunces

/-- What a run of an active order's fills leaves. -/
structure Reported (digest : String → String) (s : StoreState) (cid : String)
    (record : SourceOrderRecord)
    (fills : List SourceFill) (t : StoreState) : Prop where
  order : ∃ status, t.sourceOrders.get? cid = some { record with
    filledOunces := record.filledOunces + totalOunces fills
    status } ∧
    (fills ≠ [] → record.filledOunces + totalOunces fills = record.quantityOunces →
      status = "FILLED")
  net : t.netUnhedgedOunces = carryAll s.netUnhedgedOunces (fills.map SourceFill.signedFill)
  owed : t.owed = s.owed + (emits s.netUnhedgedOunces (fills.map SourceFill.signedFill)).sum
  short : record.filledOunces + totalOunces fills < record.quantityOunces →
    t.activeSourceOrderId = some cid ∧ t.haltReason = s.haltReason
  full : fills ≠ [] → record.filledOunces + totalOunces fills = record.quantityOunces →
    t.activeSourceOrderId = none ∧
      t.haltReason = if s.haltReason = some (sourceReconcileReason cid) then none else s.haltReason
  seen : ∀ key ∈ t.seenSourceFills, key ∈ s.seenSourceFills ∨ key ∈ fills.map (·.fillKey)
  intents : ∀ k, (∀ fill ∈ fills, k ≠ "hedge-" ++ digest fill.fillKey) →
    t.hedgeIntents.get? k = s.hedgeIntents.get? k

theorem totalOunces_cons (fill : SourceFill) (fills : List SourceFill) :
    totalOunces (fill :: fills) = fill.fillOunces + totalOunces fills := by
  simp [totalOunces]

theorem totalOunces_pos {fills : List SourceFill} (positive : ∀ fill ∈ fills, 0 < fill.fillOunces)
    (some' : fills ≠ []) : 0 < totalOunces fills := by
  cases fills with
  | nil => exact absurd rfl some'
  | cons fill fills =>
    obtain ⟨first, rest⟩ := List.forall_mem_cons.1 positive
    have later : 0 ≤ totalOunces fills := by
      apply List.sum_nonneg
      intro x member
      obtain ⟨other, listed, rfl⟩ := List.mem_map.1 member
      exact (rest other listed).le
    rw [totalOunces_cons]
    linarith

theorem Due.tail {digest : String → String} {s t : StoreState} {cid : String}
    {record : SourceOrderRecord} {fill : SourceFill} {fills : List SourceFill}
    (h : Due digest s cid record (fill :: fills)) (booked : Booked digest s fill record t) :
    Due digest t cid { record with
      filledOunces := record.filledOunces + fill.fillOunces
      status := StoreState.fillStatus record.quantityOunces
        (record.filledOunces + fill.fillOunces) } fills := by
  obtain ⟨-, each⟩ := List.forall_mem_cons.1 h.each
  have keys := h.keys
  have digests := h.digests
  rw [List.map_cons, List.nodup_cons] at keys digests
  have within := h.within
  rw [totalOunces_cons, ← add_assoc] at within
  refine ⟨fun other member => ?_, keys.2, digests.2, within⟩
  obtain ⟨named, side, positive, unseen, fresh⟩ := each other member
  refine ⟨named, side, positive, ?_, ?_⟩
  · rw [booked.seen, Finset.mem_insert, not_or]
    exact ⟨fun same => keys.1 (same ▸ List.mem_map_of_mem (f := (·.fillKey)) member), unseen⟩
  · rw [booked.intents]
    · exact fresh
    · intro same
      have same : digest other.fillKey = digest fill.fillKey := by
        have texts := congrArg String.toList same
        simp only [String.toList_append, List.append_cancel_left_eq] at texts
        exact String.toList_inj.1 texts
      exact digests.1 (same ▸ List.mem_map_of_mem (f := fun fill => digest fill.fillKey) member)

/-- The fills of an active order all land, whatever halt the order itself has left. -/
theorem fills_reported (digest : String → String) {cid : String} {fills : List SourceFill}
    (store : JsonStateStore) {record : SourceOrderRecord}
    (found : store.memory.sourceOrders.get? cid = some record) (ticketed : Ticketed record)
    (active : store.memory.activeSourceOrderId = some cid)
    (due : Due digest store.memory cid record fills) :
    store.Returns digest (fills.map .reserveSourceFill) ∧
      Reported digest store.memory cid record fills
        (store.run digest (fills.map .reserveSourceFill)).memory := by
  induction fills generalizing store record with
  | nil =>
    refine ⟨trivial, ⟨record.status, ?_, fun none => absurd rfl none⟩, rfl, ?_,
      fun _ => ⟨active, rfl⟩,
      fun none => absurd rfl none, fun _ => .inl, fun _ _ => rfl⟩
    · simpa [totalOunces, JsonStateStore.run] using found
    · simp [JsonStateStore.run, emits]
  | cons fill fills ih =>
    obtain ⟨⟨rfl, side, positive, unseen, fresh⟩, -⟩ := List.forall_mem_cons.1 due.each
    obtain ⟨t, step, booked⟩ :=
      reserveSourceFill_books digest found side.symm positive ticketed unseen fresh
    have tail := due.tail booked
    have first : (StoreOp.reserveSourceFill fill).change digest store.memory = .reserves t () :=
      step
    have next : (store.commit .published
        ((StoreOp.reserveSourceFill fill).change digest store.memory)) = (.ok (), ⟨t, t⟩) := by
      rw [first]
      rfl
    have there : t.sourceOrders.get? fill.clientOrderId = some { record with
        filledOunces := record.filledOunces + fill.fillOunces
        status := StoreState.fillStatus record.quantityOunces
          (record.filledOunces + fill.fillOunces) } := by
      rw [booked.orders, Dict.get?_set_self]
    have run : store.run digest ((fill :: fills).map .reserveSourceFill) =
        JsonStateStore.run digest ⟨t, t⟩ (fills.map .reserveSourceFill) := by
      rw [List.map_cons, JsonStateStore.run, List.foldl_cons, next]
      rfl
    have returns : JsonStateStore.Returns digest ⟨t, t⟩ (fills.map .reserveSourceFill) →
        store.Returns digest ((fill :: fills).map .reserveSourceFill) := by
      intro rest
      rw [List.map_cons, JsonStateStore.Returns, next]
      exact ⟨rfl, rest⟩
    have sum : record.filledOunces + totalOunces (fill :: fills) =
        record.filledOunces + fill.fillOunces + totalOunces fills := by
      rw [totalOunces_cons, add_assoc]
    have earlier : ∀ key ∈ t.seenSourceFills, key ∈ store.memory.seenSourceFills ∨
        key ∈ (fill :: fills).map (·.fillKey) := by
      intro key member
      rw [booked.seen, Finset.mem_insert] at member
      rcases member with rfl | old
      · exact .inr (by simp)
      · exact .inl old
    rw [run]
    by_cases last : fills = []
    · subst last
      rw [show totalOunces [] = 0 from rfl, add_zero] at sum
      refine ⟨returns trivial, ⟨StoreState.fillStatus record.quantityOunces
        (record.filledOunces + fill.fillOunces), ?_, fun _ whole => ?_⟩, ?_, ?_, ?_, ?_, ?_, ?_⟩
      · rw [sum]
        exact there
      · rw [sum] at whole
        rw [StoreState.fillStatus, if_pos whole.ge]
      · exact booked.net
      · simpa [JsonStateStore.run, emits] using booked.owed
      · intro short
        rw [sum] at short
        rw [← active]
        exact booked.short short
      · intro _ whole
        rw [sum] at whole
        exact booked.full whole.ge active
      · exact earlier
      · exact fun k apart => booked.intents k (apart fill (by simp))
    · have more := totalOunces_pos (fun other member => (tail.each other member).2.2.1) last
      have within := tail.within
      dsimp only at within
      have short : record.filledOunces + fill.fillOunces < record.quantityOunces := by linarith
      obtain ⟨active', halt'⟩ := booked.short short
      obtain ⟨rest, reported⟩ := ih ⟨t, t⟩ there ticketed (active'.trans active) tail
      obtain ⟨status, held, status'⟩ := reported.order
      refine ⟨returns rest, ⟨status, ?_, fun _ whole => status' last (sum.symm.trans whole)⟩, ?_,
        ?_, fun short' => ?_, fun _ whole => ?_, fun key member => ?_, fun k apart => ?_⟩
      · rw [sum]
        exact held
      · rw [reported.net, List.map_cons, carryAll_cons]
        dsimp only
        rw [booked.net]
      · rw [reported.owed, List.map_cons, emits, List.sum_cons, Int.cast_add]
        dsimp only
        rw [booked.owed, booked.net, add_assoc]
      · obtain ⟨current, halt⟩ := reported.short (sum ▸ short')
        exact ⟨current, halt.trans halt'⟩
      · obtain ⟨none, halt⟩ := reported.full last (sum.symm.trans whole)
        refine ⟨none, ?_⟩
        rw [halt]
        dsimp only
        rw [halt']
      · rcases reported.seen key member with old | new
        · exact earlier key old
        · exact .inr (by rw [List.map_cons]; exact List.mem_cons_of_mem _ new)
      · rw [reported.intents k fun other later => apart other (by simp [later])]
        exact booked.intents k (apart fill (by simp))

/-- The order's fills with its terminal event among them. -/
def reports (cid status : String) (before after : List SourceFill) : List StoreOp :=
  before.map .reserveSourceFill ++ .updateSourceStatus cid status :: after.map .reserveSourceFill

/-- Where an order's reports leave its store, for every order of the reports. -/
structure Settles (digest : String → String) (s : StoreState) (cid : String)
    (record : SourceOrderRecord) (status : String) (ounces : ℚ) (before after : List SourceFill)
    (t : StoreState) : Prop where
  order : ∃ last, t.sourceOrders.get? cid = some { record with
    filledOunces := record.filledOunces + ounces
    status := last }
  /-- Residual and hedge follow the order of the fills, not the place of the terminal event. -/
  net : t.netUnhedgedOunces =
    carryAll s.netUnhedgedOunces ((before ++ after).map SourceFill.signedFill)
  owed : t.owed =
    s.owed + (emits s.netUnhedgedOunces ((before ++ after).map SourceFill.signedFill)).sum
  /-- Together they do not even depend on that. -/
  conserved : t.netUnhedgedOunces + t.owed = s.netUnhedgedOunces + s.owed +
    record.side.sign * ounces
  /-- The terminal event last: the reconciled order is given up. -/
  ended : after = [] → ∃ u, t.confirmSourceReconciled cid = .reserves u () ∧
    u.sourceOrders.get? cid = some { record with
      filledOunces := record.filledOunces + ounces
      status } ∧
    u.activeSourceOrderId = none ∧ u.haltReason = none ∧
    u.netUnhedgedOunces = t.netUnhedgedOunces ∧ u.owed = t.owed
  /-- A late fill that completes the order gives it up by itself. -/
  completed : after ≠ [] →
    record.filledOunces + ounces = record.quantityOunces →
    t.sourceOrders.get? cid = some { record with
      filledOunces := record.filledOunces + ounces
      status := "FILLED" } ∧
    t.activeSourceOrderId = none ∧ t.haltReason = none

theorem totalOunces_append (fills later : List SourceFill) :
    totalOunces (fills ++ later) = totalOunces fills + totalOunces later := by
  simp [totalOunces]

theorem signed_sum {side : BusinessOrderSide} {fills : List SourceFill}
    (sides : ∀ fill ∈ fills, fill.sourceSide = side) :
    (fills.map SourceFill.signedFill).sum = side.sign * totalOunces fills := by
  induction fills with
  | nil => simp [totalOunces]
  | cons fill fills ih =>
    obtain ⟨first, sides⟩ := List.forall_mem_cons.1 sides
    rw [List.map_cons, List.sum_cons, ih sides, totalOunces_cons, signedFill_eq, first, mul_add]

theorem emits_append (r : ℚ) (xs ys : List ℚ) :
    emits r (xs ++ ys) = emits r xs ++ emits (carryAll r xs) ys := by
  induction xs generalizing r with
  | nil => rfl
  | cons x xs ih => simp [emits, ih]

theorem Due.split {digest : String → String} {s : StoreState} {cid : String}
    {record : SourceOrderRecord} {before after : List SourceFill}
    (h : Due digest s cid record (before ++ after)) : Due digest s cid record before := by
  have keys := h.keys
  have digests := h.digests
  rw [List.map_append] at keys digests
  refine ⟨fun fill member => h.each fill (List.mem_append_left _ member), keys.of_append_left,
    digests.of_append_left, ?_⟩
  have within := h.within
  have rest : 0 ≤ totalOunces after := by
    apply List.sum_nonneg
    intro x member
    obtain ⟨fill, listed, rfl⟩ := List.mem_map.1 member
    exact (h.each fill (List.mem_append_right _ listed)).2.2.1.le
  rw [totalOunces_append] at within
  linarith

/-- After the earlier fills and the terminal event, the later ones are still due. -/
theorem Due.later {digest : String → String} {s t : StoreState} {cid status : String}
    {record : SourceOrderRecord} {before after : List SourceFill}
    (h : Due digest s cid record (before ++ after))
    (reported : Reported digest s cid record before t) {u : StoreState}
    (seen : u.seenSourceFills = t.seenSourceFills) (intents : u.hedgeIntents = t.hedgeIntents) :
    Due digest u cid { record with
      filledOunces := record.filledOunces + totalOunces before
      status } after := by
  have keys := h.keys
  have digests := h.digests
  rw [List.map_append, List.nodup_append] at keys digests
  refine ⟨fun fill member => ?_, keys.2.1, digests.2.1, ?_⟩
  · obtain ⟨named, side, positive, unseen, fresh⟩ := h.each fill (List.mem_append_right _ member)
    refine ⟨named, side, positive, ?_, ?_⟩
    · rw [seen]
      intro known
      rcases reported.seen _ known with old | new
      · exact unseen old
      · exact keys.2.2 _ new _ (List.mem_map_of_mem member) rfl
    · rw [intents, reported.intents]
      · exact fresh
      · intro other listed same
        have texts := congrArg String.toList same
        simp only [String.toList_append, List.append_cancel_left_eq] at texts
        exact digests.2.2 _ (List.mem_map_of_mem (f := fun fill => digest fill.fillKey) listed) _
          (List.mem_map_of_mem (f := fun fill => digest fill.fillKey) member)
          (String.toList_inj.1 texts).symm
  · have within := h.within
    rw [totalOunces_append, ← add_assoc] at within
    exact within

/-- What the terminal event of an order that no other halt holds leaves. -/
structure Ended (cid status : String) (s : StoreState) (record : SourceOrderRecord)
    (u : StoreState) : Prop where
  order : u.sourceOrders.get? cid = some { record with status }
  active : u.activeSourceOrderId = s.activeSourceOrderId
  halt : u.haltReason = some (sourceReconcileReason cid)
  seen : u.seenSourceFills = s.seenSourceFills
  net : u.netUnhedgedOunces = s.netUnhedgedOunces
  intents : u.hedgeIntents = s.hedgeIntents

theorem terminal_step (digest : String → String) {store : JsonStateStore} {cid status : String}
    {record : SourceOrderRecord} (ends : status = "CANCELED" ∨ status = "EXPIRED")
    (found : store.memory.sourceOrders.get? cid = some record)
    (running : store.memory.haltReason = none) :
    ∃ u, store.commit .published
        ((StoreOp.updateSourceStatus cid status).change digest store.memory) = (.ok (), ⟨u, u⟩) ∧
      Ended cid status store.memory record u := by
  have step : (StoreOp.updateSourceStatus cid status).change digest store.memory =
      .publishes { store.memory with
        sourceOrders := store.memory.sourceOrders.set cid { record with status }
        haltReason := some (sourceReconcileReason cid) } () := by
    simp only [StoreOp.change, StoreState.updateSourceStatus, found, running]
    rcases ends with rfl | rfl <;> simp
  rw [step]
  exact ⟨_, rfl, Dict.get?_set_self _ _ _, rfl, rfl, rfl, rfl, rfl⟩

theorem confirmSourceReconciled_terminal {s : StoreState} {cid : String}
    {record : SourceOrderRecord} (found : s.sourceOrders.get? cid = some record)
    (ends : record.status = "CANCELED" ∨ record.status = "EXPIRED") :
    s.confirmSourceReconciled cid = .reserves (s.releaseSource cid) () := by
  rw [StoreState.confirmSourceReconciled, found]
  exact if_pos (by simpa using ends)

theorem reports_settle {digest : String → String} {store : JsonStateStore} {cid status : String}
    {record : SourceOrderRecord} (ends : status = "CANCELED" ∨ status = "EXPIRED")
    (found : store.memory.sourceOrders.get? cid = some record) (ticketed : Ticketed record)
    (active : store.memory.activeSourceOrderId = some cid)
    (running : store.memory.haltReason = none) {before after : List SourceFill}
    (due : Due digest store.memory cid record (before ++ after)) :
    store.Returns digest (reports cid status before after) ∧
      Settles digest store.memory cid record status (totalOunces (before ++ after)) before after
        (store.run digest (reports cid status before after)).memory := by
  obtain ⟨returns, first⟩ := fills_reported digest store found ticketed active due.split
  generalize reached : store.run digest (before.map .reserveSourceFill) = mid at first
  obtain ⟨partStatus, held, -⟩ := first.order
  have sides : ∀ fill ∈ before ++ after, fill.sourceSide = record.side :=
    fun fill member => (due.each fill member).2.1
  have positive : ∀ fill ∈ after, 0 < fill.fillOunces :=
    fun fill member => (due.each fill (List.mem_append_right _ member)).2.2.1
  have within := due.within
  have sum : record.filledOunces + totalOunces (before ++ after) =
      record.filledOunces + totalOunces before + totalOunces after := by
    rw [totalOunces_append, add_assoc]
  have more := totalOunces_pos positive
  -- The earlier fills leave no halt, and the order active unless they complete it.
  have lane : mid.memory.haltReason = none ∧
    (after ≠ [] → mid.memory.activeSourceOrderId = some cid) ∧
      (mid.memory.activeSourceOrderId = some cid ∨ mid.memory.activeSourceOrderId = none) := by
    by_cases short : record.filledOunces + totalOunces before < record.quantityOunces
    · obtain ⟨current, halt⟩ := first.short short
      exact ⟨halt.trans running, fun _ => current, .inl current⟩
    · have complete : after = [] := by
        by_contra some'
        have more := more some'
        linarith
      by_cases blank : before = []
      · subst blank
        obtain rfl : store = mid := reached
        exact ⟨running, fun _ => active, .inl active⟩
      · have whole : record.filledOunces + totalOunces before = record.quantityOunces := by
          rw [sum, complete, show totalOunces [] = 0 from rfl, add_zero] at within
          exact le_antisymm within (not_lt.1 short)
        obtain ⟨gone, halt⟩ := first.full blank whole
        refine ⟨?_, fun some' => absurd complete some', .inr gone⟩
        rw [halt, running]
        rfl
  obtain ⟨u, step, ended⟩ := terminal_step digest ends held lane.1
  have run : store.run digest (reports cid status before after) =
      JsonStateStore.run digest ⟨u, u⟩ (after.map .reserveSourceFill) := by
    rw [reports, JsonStateStore.run_append, reached, JsonStateStore.run, List.foldl_cons, step]
    rfl
  have returns' : JsonStateStore.Returns digest ⟨u, u⟩ (after.map .reserveSourceFill) →
      store.Returns digest (reports cid status before after) := by
    intro rest
    rw [reports, JsonStateStore.returns_append, reached, JsonStateStore.Returns, step]
    exact ⟨returns, rfl, rest⟩
  rw [run]
  have total := carryAll_add_emits store.memory.netUnhedgedOunces
    ((before ++ after).map SourceFill.signedFill)
  rw [signed_sum sides] at total
  have owed : u.owed = mid.memory.owed := by
    rw [StoreState.owed, ended.intents]
    rfl
  have conserve : ∀ t : StoreState,
      t.netUnhedgedOunces =
        carryAll store.memory.netUnhedgedOunces ((before ++ after).map SourceFill.signedFill) →
      t.owed = store.memory.owed + (emits store.memory.netUnhedgedOunces
        ((before ++ after).map SourceFill.signedFill)).sum →
      t.netUnhedgedOunces + t.owed = store.memory.netUnhedgedOunces + store.memory.owed +
        record.side.sign * totalOunces (before ++ after) := by
    intro t net owed
    rw [net, owed]
    linarith
  by_cases last : after = []
  · subst last
    refine ⟨returns' trivial, ?_⟩
    show Settles digest store.memory cid record status (totalOunces (before ++ [])) before [] u
    have net : u.netUnhedgedOunces = carryAll store.memory.netUnhedgedOunces
        ((before ++ []).map SourceFill.signedFill) := by
      rw [List.append_nil, ended.net, first.net]
    have emitted : u.owed = store.memory.owed + (emits store.memory.netUnhedgedOunces
        ((before ++ []).map SourceFill.signedFill)).sum := by
      rw [List.append_nil, owed, first.owed]
    have whole : u.sourceOrders.get? cid = some { record with
        filledOunces := record.filledOunces + totalOunces (before ++ [])
        status } := by
      rw [List.append_nil]
      exact ended.order
    refine ⟨⟨status, whole⟩, net, emitted, conserve u net emitted, fun _ => ?_,
      fun some' => absurd rfl some'⟩
    refine ⟨u.releaseSource cid, confirmSourceReconciled_terminal whole ends, whole, ?_, ?_, rfl,
      rfl⟩
    · have kept := ended.active
      rcases lane.2.2 with current | gone
      · exact if_pos (kept.trans current)
      · show (if _ then _ else _) = none
        rw [kept, gone, ite_self]
    · exact if_pos ended.halt
  · obtain ⟨rest, second⟩ := fills_reported digest ⟨u, u⟩ ended.order ticketed
      (ended.active.trans (lane.2.1 last)) (due.later first ended.seen ended.intents)
    refine ⟨returns' rest, ?_⟩
    generalize JsonStateStore.run digest ⟨u, u⟩ (after.map .reserveSourceFill) = store' at second ⊢
    have net : store'.memory.netUnhedgedOunces = carryAll store.memory.netUnhedgedOunces
        ((before ++ after).map SourceFill.signedFill) := by
      rw [second.net, List.map_append, carryAll_append, ← first.net, ← ended.net]
    have emitted : store'.memory.owed = store.memory.owed + (emits store.memory.netUnhedgedOunces
        ((before ++ after).map SourceFill.signedFill)).sum := by
      rw [second.owed, List.map_append, emits_append, List.sum_append, ← first.net]
      dsimp only
      rw [owed, first.owed, ended.net, Int.cast_add, add_assoc]
    obtain ⟨final, order, filled⟩ := second.order
    dsimp only at order filled
    rw [← sum] at order filled
    refine ⟨⟨final, order⟩, net, emitted, conserve _ net emitted, fun none => absurd none last, ?_⟩
    intro _ whole
    obtain ⟨gone, halt⟩ := second.full last (sum.symm.trans whole)
    refine ⟨?_, gone, ?_⟩
    · rw [order, filled last whole]
    · rw [halt]
      exact if_pos ended.halt

/-- What the venue and the digest promise of the fills of an order that are still to come. -/
structure Outstanding (digest : String → String) (s : StoreState) (cid : String)
    (record : SourceOrderRecord) (fills : List SourceFill) : Prop where
  each : ∀ fill ∈ fills, fill.clientOrderId = cid ∧ fill.sourceSide = record.side ∧
    0 < fill.fillOunces ∧ fill.fillKey ∉ s.seenSourceFills
  keys : (fills.map (·.fillKey)).Nodup
  within : record.filledOunces + totalOunces fills ≤ record.quantityOunces
  /-- No two fill keys share a digest. -/
  stored : ∀ fill ∈ fills, ∀ k intent, s.hedgeIntents.get? k = some intent →
    digest intent.fillKey = digest fill.fillKey → intent.fillKey = fill.fillKey
  digests : ∀ fill ∈ fills, ∀ other ∈ fills, digest fill.fillKey = digest other.fillKey →
    fill.fillKey = other.fillKey

theorem totalOunces_perm {fills later : List SourceFill} (same : fills.Perm later) :
    totalOunces fills = totalOunces later :=
  (same.map _).sum_eq

theorem Outstanding.due {digest : String → String} {s : StoreState} {cid : String}
    {record : SourceOrderRecord} {fills arranged : List SourceFill}
    (h : Outstanding digest s cid record fills) (opened : Opened digest s)
    (same : arranged.Perm fills) : Due digest s cid record arranged := by
  have keys : (arranged.map (·.fillKey)).Nodup := (same.map _).nodup_iff.2 h.keys
  refine ⟨fun fill member => ?_, keys, ?_, ?_⟩
  · have member := same.mem_iff.1 member
    obtain ⟨named, side, positive, unseen⟩ := h.each fill member
    refine ⟨named, side, positive, unseen, ?_⟩
    cases found : s.hedgeIntents.get? ("hedge-" ++ digest fill.fillKey) with
    | none => rfl
    | some intent =>
      obtain ⟨key, seen⟩ := opened.intents _ intent found
      have texts := congrArg String.toList key
      simp only [String.toList_append, List.append_cancel_left_eq] at texts
      have twin := h.stored fill member _ intent found (String.toList_inj.1 texts).symm
      exact absurd (twin ▸ seen) unseen
  · have apart : ∀ key ∈ arranged.map (·.fillKey), ∀ key' ∈ arranged.map (·.fillKey),
        digest key = digest key' → key = key' := by
      intro key first key' second
      obtain ⟨fill, listed, rfl⟩ := List.mem_map.1 first
      obtain ⟨other, listed', rfl⟩ := List.mem_map.1 second
      exact h.digests fill (same.mem_iff.1 listed) other (same.mem_iff.1 listed')
    have images := List.Nodup.map_on apart keys
    rwa [List.map_map] at images
  · rw [totalOunces_perm same]
    exact h.within

/-- However the fills of an active order arrive around its terminal event, every call returns,
and the store settles with the same ounces filled and the same sum of residual and hedge. -/
theorem cancel_fill_settles {digest : String → String} {store : JsonStateStore}
    (reachable : Reachable digest store) {cid status : String} {record : SourceOrderRecord}
    (ends : status = "CANCELED" ∨ status = "EXPIRED")
    (found : store.memory.sourceOrders.get? cid = some record)
    (active : store.memory.activeSourceOrderId = some cid)
    (running : store.memory.haltReason = none) {fills : List SourceFill}
    (outstanding : Outstanding digest store.memory cid record fills)
    (before after : List SourceFill) (arranged : (before ++ after).Perm fills) :
    store.Returns digest (reports cid status before after) ∧
      Settles digest store.memory cid record status (totalOunces fills) before after
        (store.run digest (reports cid status before after)).memory := by
  have opened := reachable_opened reachable
  rw [← totalOunces_perm arranged]
  exact reports_settle ends found (opened.tickets cid record found) active running
    (outstanding.due opened arranged)

/-- An order of two ounces, active in an empty store. -/
def orderOfTwo : JsonStateStore :=
  JsonStateStore.run id .empty
    [.beginSource ⟨"O-1", .buy, 2, none, none, none, none, none, none, none⟩]

def halfFill : SourceFill := ⟨"O-1|V-1|T-1", "O-1", "T-1", .buy, 1 / 2⟩

def wholeFill : SourceFill := ⟨"O-1|V-1|T-2", "O-1", "T-2", .buy, 1⟩

theorem cancel_fill_settles_orderOfTwo :
    orderOfTwo.Returns id (reports "O-1" "CANCELED" [wholeFill] [halfFill]) ∧
      Settles id orderOfTwo.memory "O-1"
        ⟨"O-1", .buy, 2, none, none, none, none, none, none, 0, "SUBMITTING"⟩ "CANCELED"
        (totalOunces [halfFill, wholeFill]) [wholeFill] [halfFill]
        (orderOfTwo.run id (reports "O-1" "CANCELED" [wholeFill] [halfFill])).memory := by
  have reachable : Reachable id orderOfTwo := Reachable.start.run _
  have found : orderOfTwo.memory.sourceOrders.get? "O-1" =
      some ⟨"O-1", .buy, 2, none, none, none, none, none, none, 0, "SUBMITTING"⟩ := by
    decide +kernel
  have unseen : orderOfTwo.memory.seenSourceFills = ∅ := by decide +kernel
  refine cancel_fill_settles reachable (.inl rfl) found (by decide +kernel) (by decide +kernel)
    ⟨by decide +kernel, by decide +kernel, by decide +kernel, fun fill _ k intent stored => ?_,
      fun _ _ _ _ => id⟩ [wholeFill] [halfFill] (by decide +kernel)
  have seen := ((reachable_opened reachable).intents k intent stored).2
  simp [unseen] at seen

/-- A tie is rounded to even, so the order of the fills decides the hedge. -/
theorem order_of_fills_matters :
    orderOfTwo.Returns id (reports "O-1" "CANCELED" [halfFill, wholeFill] []) ∧
      orderOfTwo.Returns id (reports "O-1" "CANCELED" [wholeFill, halfFill] []) ∧
      (orderOfTwo.run id (reports "O-1" "CANCELED" [halfFill, wholeFill] [])).memory.owed ≠
        (orderOfTwo.run id (reports "O-1" "CANCELED" [wholeFill, halfFill] [])).memory.owed := by
  refine ⟨?_, ?_, by decide +kernel⟩
  · exact ⟨by decide +kernel, by decide +kernel, by decide +kernel, trivial⟩
  · exact ⟨by decide +kernel, by decide +kernel, by decide +kernel, trivial⟩

end ArbNautilus.Store
