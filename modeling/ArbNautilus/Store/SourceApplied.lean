import ArbNautilus.Store.HedgeApplied
import ArbNautilus.Store.SourceFacts
import ArbNautilus.Store.Tally

/-! What a store holds once a suffix of source fills was appended under a HOLD. -/

namespace ArbNautilus.Base.Dict

variable {κ ν : Type} [DecidableEq κ]

theorem assign_listed {es : List (κ × ν)} {k : κ} {v : ν} (nodup : (es.map Prod.fst).Nodup)
    (known : k ∈ es.map Prod.fst) :
    assign k v es = es.map fun e => if e.1 = k then (k, v) else e := by
  induction es with
  | nil => simp at known
  | cons e es ih =>
    rw [List.map_cons, List.nodup_cons] at nodup
    rw [assign, List.map_cons]
    by_cases here : e.1 = k
    · rw [if_pos here, if_pos here]
      congr 1
      have others : ∀ e' ∈ es, (if e'.1 = k then (k, v) else e') = id e' := by
        intro e' member
        rw [if_neg]
        · rfl
        · rintro rfl
          apply nodup.1
          rw [here]
          exact List.mem_map_of_mem member
      rw [List.map_congr_left others, List.map_id]
    · rw [if_neg here, if_neg here]
      rw [List.map_cons, List.mem_cons] at known
      rw [ih nodup.2 (known.resolve_left (Ne.symm here))]

/-- What is set under a known key takes its place. -/
theorem entries_set_listed {d : Dict κ ν} {k : κ} {v₀ : ν} (h : d.get? k = some v₀) (v : ν) :
    (d.set k v).entries = d.entries.map fun e => if e.1 = k then (k, v) else e :=
  assign_listed d.nodup ((mem_keys_iff d k).2 ⟨v₀, h⟩)

end ArbNautilus.Base.Dict

namespace ArbNautilus.Store

open Base Native

/-- A source order after one more fill. -/
def SourceOrderRecord.take (record : SourceOrderRecord) (ounces : ℚ) : SourceOrderRecord :=
  { record with
    filledOunces := record.filledOunces + ounces
    status := StoreState.fillStatus record.quantityOunces (record.filledOunces + ounces) }

namespace SourceProjection

/-- A source order after the fills of a list that are its own. -/
def grown (fills : List SourceFill) (cid : String) (record : SourceOrderRecord) :
    SourceOrderRecord :=
  fills.foldl (fun record fill => if fill.clientOrderId = cid then record.take fill.fillOunces
    else record) record

/-- A field that no fill changes. -/
theorem grown_field {α : Type} {f : SourceOrderRecord → α}
    (same : ∀ record ounces, f (record.take ounces) = f record)
    (fills : List SourceFill) (cid : String) (record : SourceOrderRecord) :
    f (grown fills cid record) = f record := by
  induction fills generalizing record with
  | nil => rfl
  | cons fill fills ih =>
    rw [grown, List.foldl_cons]
    refine (ih _).trans ?_
    split
    · exact same _ _
    · rfl

theorem grown_other {fills : List SourceFill} {cid : String}
    (other : ∀ fill ∈ fills, fill.clientOrderId ≠ cid)
    (record : SourceOrderRecord) : grown fills cid record = record := by
  induction fills generalizing record with
  | nil => rfl
  | cons fill fills ih =>
    obtain ⟨here, other⟩ := List.forall_mem_cons.1 other
    rw [grown, List.foldl_cons, if_neg here]
    exact ih other record

def ounces (fills : List SourceFill) : ℚ := (fills.map (·.fillOunces)).sum

theorem grown_filled {fills : List SourceFill} {cid : String}
    (own : ∀ fill ∈ fills, fill.clientOrderId = cid)
    (record : SourceOrderRecord) :
    (grown fills cid record).filledOunces = record.filledOunces + ounces fills := by
  induction fills generalizing record with
  | nil => simp [grown, ounces]
  | cons fill fills ih =>
    obtain ⟨here, own⟩ := List.forall_mem_cons.1 own
    rw [grown, List.foldl_cons, if_pos here]
    refine (ih own _).trans ?_
    simp only [SourceOrderRecord.take, ounces, List.map_cons, List.sum_cons]
    ring

section Step

variable (digest : String → String) (blockedReason : Option String)

/-- One fill recorded, with the ounces that were allocated to it. -/
structure Takes (fill : SourceFill) (rounded : ℤ) (s t : StoreState) : Prop where
  unseen : fill.fillKey ∉ s.seenSourceFills
  seen : t.seenSourceFills = insert fill.fillKey s.seenSourceFills
  seenHedges : t.seenHedgeFills = s.seenHedgeFills
  record : ∃ record, s.sourceOrders.get? fill.clientOrderId = some record ∧
    record.side = fill.sourceSide ∧ 0 < fill.fillOunces ∧
    t.sourceOrders = s.sourceOrders.set fill.clientOrderId (record.take fill.fillOunces) ∧
    (rounded = 0 ∧ t.hedgeIntents = s.hedgeIntents ∨ rounded ≠ 0 ∧ ∃ intent : HedgeIntent,
      intent.toIntentFields = StoreState.openedIntent digest record fill blockedReason rounded ∧
      t.hedgeIntents = s.hedgeIntents.set intent.intentId intent)

/-- Fills recorded in turn, none of the order's holds lifted. -/
inductive Appends : List (SourceFill × ℤ) → StoreState → StoreState → Prop where
  | nil (s : StoreState) : Appends [] s s
  | cons {fill : SourceFill} {rounded : ℤ} {rest : List (SourceFill × ℤ)} {s t u : StoreState}
      (takes : Takes digest blockedReason fill rounded s t)
        (active : t.activeSourceOrderId = s.activeSourceOrderId)
      (halt : t.haltReason = s.haltReason) (freeze : t.sourceFreezeReason = s.sourceFreezeReason) :
      Appends rest t u → Appends ((fill, rounded) :: rest) s u

end Step

section Appends

variable {digest : String → String} {reason : String} {taken : List (SourceFill × ℤ)}
  {s t : StoreState}

def fillsOfTaken (taken : List (SourceFill × ℤ)) : List SourceFill := taken.map Prod.fst

theorem Appends.seen (h : Appends digest (some reason) taken s t) :
    t.seenSourceFills = s.seenSourceFills ∪ ((fillsOfTaken taken).map (·.fillKey)).toFinset := by
  induction h with
  | nil => simp [fillsOfTaken]
  | cons takes _ _ _ _ ih =>
    rw [ih, takes.seen, Finset.insert_union, ← Finset.union_insert]
    simp [fillsOfTaken]

theorem Appends.same (h : Appends digest (some reason) taken s t) :
    t.activeSourceOrderId = s.activeSourceOrderId ∧ t.haltReason = s.haltReason ∧
      t.sourceFreezeReason = s.sourceFreezeReason ∧ t.seenHedgeFills = s.seenHedgeFills := by
  induction h with
  | nil => exact ⟨rfl, rfl, rfl, rfl⟩
  | cons takes active halt freeze _ ih =>
    exact ⟨ih.1.trans active, ih.2.1.trans halt, ih.2.2.1.trans freeze,
      ih.2.2.2.trans takes.seenHedges⟩

theorem Appends.orders (h : Appends digest (some reason) taken s t) :
    t.sourceOrders.entries =
      s.sourceOrders.entries.map fun e => (e.1, grown (fillsOfTaken taken) e.1 e.2) := by
  induction h with
  | nil s =>
    show s.sourceOrders.entries = s.sourceOrders.entries.map id
    rw [List.map_id]
  | @cons fill rounded rest s t u takes _ _ _ _ ih =>
    obtain ⟨record, found, -, -, orders, -⟩ := takes.record
    rw [ih, orders, Dict.entries_set_listed found, List.map_map]
    apply List.map_congr_left
    rintro ⟨cid, other⟩ member
    rw [Function.comp_apply]
    by_cases here : cid = fill.clientOrderId
    · subst here
      obtain rfl := Option.some.inj (found.symm.trans ((Dict.mem_entries_iff _ _ _).1 member))
      simp [fillsOfTaken, grown]
    · simp [fillsOfTaken, grown, here, Ne.symm here]

/-- The obligation a fill leaves. -/
structure Opened (digest : String → String) (fill : SourceFill) (rounded : ℤ)
    (entry : String × HedgeIntent) : Prop where
  id : entry.1 = "hedge-" ++ digest fill.fillKey
  named : entry.1 = entry.2.intentId
  fillKey : entry.2.fillKey = fill.fillKey
  source : entry.2.sourceClientOrderId = fill.clientOrderId
  trade : entry.2.sourceTradeId = fill.tradeId
  side : entry.2.sourceSide = fill.sourceSide
  ounces : entry.2.sourceFillOunces = fill.fillOunces
  status : entry.2.status = .blocked
  unbound : entry.2.hedgeOrderIds = [] ∧ entry.2.hedgeClientOrderId = none
  signed : -entry.2.hedgeSide.sign * entry.2.hedgeQuantityOunces = rounded

theorem opened_of_fields {record : SourceOrderRecord} {fill : SourceFill} {rounded : ℤ}
    {intent : HedgeIntent}
    (fields : intent.toIntentFields =
      StoreState.openedIntent digest record fill (some reason) rounded) :
    Opened digest fill rounded (intent.intentId, intent) := by
  refine ⟨by rw [fields]; rfl, rfl, by rw [fields]; rfl, by rw [fields]; rfl, by rw [fields]; rfl,
    by rw [fields]; rfl, by rw [fields]; rfl, by rw [fields]; rfl, ?_, ?_⟩
  · rw [fields]
    exact ⟨rfl, rfl⟩
  · have side : intent.hedgeSide = if 0 < rounded then .sell else .buy := by rw [fields]; rfl
    have quantity : intent.hedgeQuantityOunces = |(rounded : ℚ)| := by
      rw [fields]
      rfl
    dsimp only
    rw [side, quantity]
    by_cases positive : 0 < rounded
    · rw [if_pos positive, abs_of_pos (by exact_mod_cast positive)]
      simp [BusinessOrderSide.sign]
    · rw [if_neg positive, abs_of_nonpos (by exact_mod_cast not_lt.1 positive)]
      simp [BusinessOrderSide.sign]

/-- What is opened, fill by fill. -/
structure Opens (digest : String → String) (taken : List (SourceFill × ℤ))
    (new : List (String × HedgeIntent)) : Prop where
  each : ∀ entry ∈ new, ∃ fill ∈ fillsOfTaken taken, ∃ rounded, Opened digest fill rounded entry
  keys : (new.map (·.2.fillKey)).Sublist ((fillsOfTaken taken).map (·.fillKey))
  signed : signedHedges (new.map Prod.snd) = (taken.map fun item => (item.2 : ℚ)).sum

def intentIds (digest : String → String) (fills : List SourceFill) : List String :=
  fills.map fun fill => "hedge-" ++ digest fill.fillKey

/-- The number of fills that open an obligation. -/
def openedCount (taken : List (SourceFill × ℤ)) : ℤ :=
  (taken.map fun item => if item.2 = 0 then 0 else 1).sum

/-- What a fill opens stands at the end, or in the place of an obligation of the same digest. -/
theorem Takes.entries {fill : SourceFill} {rounded : ℤ}
    (takes : Takes digest (some reason) fill rounded s t) :
    (rounded = 0 ∧ t.hedgeIntents = s.hedgeIntents) ∨
      rounded ≠ 0 ∧ ∃ intent, Opened digest fill rounded (intent.intentId, intent) ∧
        t.hedgeIntents = s.hedgeIntents.set intent.intentId intent := by
  obtain ⟨record, -, -, -, -, opens⟩ := takes.record
  obtain ⟨zero, intents⟩ | ⟨nonzero, intent, fields, intents⟩ := opens
  · exact .inl ⟨zero, intents⟩
  · exact .inr ⟨nonzero, intent, opened_of_fields fields, intents⟩

theorem intentCount_set (d : Dict String HedgeIntent) (k : String) (intent : HedgeIntent) :
    OwnerConfig.intentCount (d.set k intent) ≤ OwnerConfig.intentCount d + 1 ∧
      (OwnerConfig.intentCount (d.set k intent) = OwnerConfig.intentCount d + 1 →
        d.get? k = none) := by
  unfold OwnerConfig.intentCount
  cases found : d.get? k with
  | none => rw [Dict.total_set_of_get?_none _ found]; exact ⟨le_rfl, fun _ => rfl⟩
  | some held =>
    rw [Dict.total_set_of_get? _ found]
    exact ⟨by omega, fun same => by omega⟩

theorem Takes.counted {fill : SourceFill} {rounded : ℤ}
    (takes : Takes digest (some reason) fill rounded s t) :
    OwnerConfig.intentCount t.hedgeIntents ≤
      OwnerConfig.intentCount s.hedgeIntents + openedCount [(fill, rounded)] := by
  obtain ⟨rfl, intents⟩ | ⟨nonzero, intent, -, intents⟩ := takes.entries
  · simp [openedCount, intents]
  · have grows := (intentCount_set s.hedgeIntents intent.intentId intent).1
    simpa [openedCount, intents, nonzero] using grows

theorem openedCount_cons (item : SourceFill × ℤ) (taken : List (SourceFill × ℤ)) :
    openedCount (item :: taken) = openedCount [item] + openedCount taken := by
  simp [openedCount]

theorem Appends.counted (h : Appends digest (some reason) taken s t) :
    OwnerConfig.intentCount t.hedgeIntents ≤
      OwnerConfig.intentCount s.hedgeIntents + openedCount taken := by
  induction h with
  | nil => simp [openedCount]
  | cons takes _ _ _ _ ih =>
    have first := takes.counted
    rw [openedCount_cons]
    omega

/-- Where a fill's digest is new, its obligation is one more. -/
theorem Takes.grows {fill : SourceFill} {rounded : ℤ}
    (takes : Takes digest (some reason) fill rounded s t)
    (fresh : "hedge-" ++ digest fill.fillKey ∉ s.hedgeIntents.keys) :
    OwnerConfig.intentCount t.hedgeIntents =
      OwnerConfig.intentCount s.hedgeIntents + openedCount [(fill, rounded)] := by
  obtain ⟨rfl, intents⟩ | ⟨nonzero, intent, made, intents⟩ := takes.entries
  · simp [openedCount, intents]
  · have absent : s.hedgeIntents.get? intent.intentId = none := by
      rw [Dict.get?_eq_none_iff, show intent.intentId =
        "hedge-" ++ digest fill.fillKey from made.id]
      exact fresh
    rw [intents, OwnerConfig.intentCount, Dict.total_set_of_get?_none _ absent]
    simp [OwnerConfig.intentCount, openedCount, nonzero]

/-- Where no digest meets another, each obligation is one more. -/
theorem Appends.grows (h : Appends digest (some reason) taken s t)
    (fresh : (s.hedgeIntents.keys ++ intentIds digest (fillsOfTaken taken)).Nodup) :
    OwnerConfig.intentCount t.hedgeIntents =
      OwnerConfig.intentCount s.hedgeIntents + openedCount taken := by
  induction h with
  | nil => simp [openedCount]
  | @cons fill rounded rest s t u takes _ _ _ _ ih =>
    have first : "hedge-" ++ digest fill.fillKey ∉ s.hedgeIntents.keys := fun known =>
      (List.nodup_append.1 fresh).2.2 _ known _ List.mem_cons_self rfl
    have later : (t.hedgeIntents.keys ++ intentIds digest (fillsOfTaken rest)).Nodup := by
      obtain ⟨-, intents⟩ | ⟨-, intent, made, intents⟩ := takes.entries
      · rw [intents]
        exact fresh.sublist (List.Sublist.append_left (List.sublist_cons_self _ _) _)
      · have id : intent.intentId = "hedge-" ++ digest fill.fillKey := made.id
        have absent : s.hedgeIntents.get? intent.intentId = none := by
          rw [Dict.get?_eq_none_iff, id]
          exact first
        rw [intents, Dict.keys_set_of_get?_none absent, id, List.append_assoc]
        exact fresh
    rw [ih later, takes.grows first, openedCount_cons (fill, rounded) rest]
    ring

/-- What one of the fills opened stands at the end, where each obligation is one more. -/
theorem Takes.appended {fill : SourceFill} {rounded : ℤ}
    (takes : Takes digest (some reason) fill rounded s t)
    (grows : OwnerConfig.intentCount t.hedgeIntents =
      OwnerConfig.intentCount s.hedgeIntents + openedCount [(fill, rounded)]) :
    (rounded = 0 ∧ t.hedgeIntents = s.hedgeIntents) ∨
      ∃ intent, Opened digest fill rounded (intent.intentId, intent) ∧
        t.hedgeIntents.entries = s.hedgeIntents.entries ++ [(intent.intentId, intent)] := by
  obtain ⟨zero, intents⟩ | ⟨nonzero, intent, made, intents⟩ := takes.entries
  · exact .inl ⟨zero, intents⟩
  · have absent : s.hedgeIntents.get? intent.intentId = none := by
      apply (intentCount_set s.hedgeIntents intent.intentId intent).2
      rw [← intents, grows]
      simp [openedCount, nonzero]
    exact .inr ⟨intent, made, by rw [intents, Dict.entries_set_fresh absent]⟩

/-- Where each obligation is one more, all of them are appended. -/
theorem Appends.intents (h : Appends digest (some reason) taken s t)
    (grows : OwnerConfig.intentCount t.hedgeIntents =
      OwnerConfig.intentCount s.hedgeIntents + openedCount taken) :
    ∃ new, t.hedgeIntents.entries = s.hedgeIntents.entries ++ new ∧ Opens digest taken new := by
  induction h with
  | nil s => exact ⟨[], by simp, by simp, by simp [fillsOfTaken], by simp [signedHedges]⟩
  | @cons fill rounded rest s t u takes _ _ _ later ih =>
    rw [openedCount_cons] at grows
    have first := takes.counted
    have second := later.counted
    obtain ⟨new, entries, opened⟩ := ih (by omega)
    have each : ∀ entry ∈ new, ∃ fill' ∈ fillsOfTaken ((fill, rounded) :: rest), ∃ rounded',
        Opened digest fill' rounded' entry := by
      intro entry member
      obtain ⟨other, listed, made⟩ := opened.each entry member
      exact ⟨other, List.mem_cons_of_mem _ listed, made⟩
    obtain ⟨zero, intents⟩ | ⟨intent, made, intents⟩ := takes.appended (by omega)
    · refine ⟨new, by rw [entries, intents], each, opened.keys.cons _, ?_⟩
      rw [opened.signed, List.map_cons, List.sum_cons, zero]
      simp
    · refine ⟨(intent.intentId, intent) :: new, ?_, ?_, ?_, ?_⟩
      · rw [entries, intents, List.append_assoc]
        rfl
      · intro entry member
        obtain rfl | member := List.mem_cons.1 member
        · exact ⟨fill, List.mem_cons_self, rounded, made⟩
        · exact each entry member
      · rw [List.map_cons, made.fillKey]
        exact opened.keys.cons_cons _
      · have rest := opened.signed
        unfold signedHedges at rest ⊢
        rw [List.map_cons, List.map_cons, List.sum_cons, rest, List.map_cons, List.sum_cons,
          made.signed]

end Appends

section Fold

variable {digest : String → String} {reason : String}

theorem recordSourceFill_take {s t : StoreState} {record : SourceOrderRecord} {fill : SourceFill}
    (h : s.recordSourceFill record fill (some reason) = .ok t) :
    record.side = fill.sourceSide ∧ 0 < fill.fillOunces ∧
      t = { s with
        seenSourceFills := insert fill.fillKey s.seenSourceFills
        sourceOrders := s.sourceOrders.set fill.clientOrderId (record.take fill.fillOunces) } := by
  simp only [StoreState.recordSourceFill, bind_unit_eq_ok, raiseIf_eq_ok, not_not, not_le,
    reduceCtorEq, false_and,
    if_false, pure_eq_ok] at h
  obtain ⟨side, positive, rfl⟩ := h
  exact ⟨side, positive, rfl⟩

theorem Takes.appends {fill : SourceFill} {rounded : ℤ} {s t : StoreState}
    (takes : Takes digest (some reason) fill rounded s t)
    (active : t.activeSourceOrderId = s.activeSourceOrderId)
    (halt : t.haltReason = s.haltReason) (freeze : t.sourceFreezeReason = s.sourceFreezeReason) :
    Appends digest (some reason) [(fill, rounded)] s t :=
  .cons takes active halt freeze (.nil t)

/-- What follows the recording of a fill, whoever allocates. -/
theorem openHedgeIntent_takes {s mid t : StoreState} {record : SourceOrderRecord}
    {fill : SourceFill} {rounded : ℤ}
    {opened : Option HedgeIntent}
    (h : mid.openHedgeIntent digest record fill (some reason) rounded = .ok (t, opened))
    (unseen : fill.fillKey ∉ s.seenSourceFills)
    (found : s.sourceOrders.get? fill.clientOrderId = some record)
    (side : record.side = fill.sourceSide)
    (positive : 0 < fill.fillOunces)
    (recorded : mid = { s with
      seenSourceFills := insert fill.fillKey s.seenSourceFills
      sourceOrders := s.sourceOrders.set fill.clientOrderId (record.take fill.fillOunces)
      netUnhedgedOunces := mid.netUnhedgedOunces }) :
    Appends digest (some reason) [(fill, rounded)] s t ∧
      t.netUnhedgedOunces = mid.netUnhedgedOunces := by
  rw [recorded] at h
  obtain ⟨zero, rfl, -⟩ | ⟨nonzero, intent, fields, -, rfl⟩ := StoreState.openHedgeIntent_eq_ok h
  · refine ⟨Takes.appends ⟨unseen, rfl, rfl, record, found, side, positive, rfl, ?_⟩ rfl rfl rfl,
      rfl⟩
    exact .inl ⟨zero, rfl⟩
  · refine ⟨Takes.appends ⟨unseen, rfl, rfl, record, found, side, positive, rfl, ?_⟩ rfl rfl rfl,
      rfl⟩
    exact .inr ⟨nonzero, intent, fields, rfl⟩

theorem applySourceFill_takes {s t : StoreState} {fill : SourceFill} {opened : Option HedgeIntent}
    (unseen : fill.fillKey ∉ s.seenSourceFills)
    (known : s.sourceOrders.get? fill.clientOrderId ≠ none)
    (h : s.applySourceFill digest fill (some reason) = .ok (t, opened)) :
    ∃ rounded : ℤ, Appends digest (some reason) [(fill, rounded)] s t ∧
      t.netUnhedgedOunces = s.netUnhedgedOunces + fill.signedFill - rounded := by
  unfold StoreState.applySourceFill at h
  rw [if_neg unseen] at h
  split at h
  · rename_i none'
    exact absurd none' known
  · rename_i record found
    rw [bind_eq_ok] at h
    obtain ⟨recorded, booked, h⟩ := h
    obtain ⟨side, positive, rfl⟩ := recordSourceFill_take booked
    obtain ⟨appends, net⟩ := openHedgeIntent_takes h unseen found side positive rfl
    exact ⟨_, appends, net⟩

theorem Appends.append {taken later : List (SourceFill × ℤ)} {s t u : StoreState}
    (first : Appends digest (some reason) taken s t)
    (second : Appends digest (some reason) later t u) :
    Appends digest (some reason) (taken ++ later) s u := by
  induction first with
  | nil => exact second
  | cons takes active halt freeze _ ih => exact .cons takes active halt freeze (ih second)

theorem Appends.unseen {fill : SourceFill} {rounded : ℤ} {s t : StoreState}
    (h : Appends digest (some reason) [(fill, rounded)] s t) {other : SourceFill}
    (apart : fill.fillKey ≠ other.fillKey) (unseen : other.fillKey ∉ s.seenSourceFills) :
    other.fillKey ∉ t.seenSourceFills := by
  rw [h.seen]
  simp [fillsOfTaken, unseen, Ne.symm apart]

theorem Appends.known {taken : List (SourceFill × ℤ)} {s t : StoreState}
    (h : Appends digest (some reason) taken s t) {cid : String}
    (known : s.sourceOrders.get? cid ≠ none) :
    t.sourceOrders.get? cid ≠ none := by
  rw [ne_eq, Dict.get?_eq_none_iff, not_not] at known ⊢
  rw [Dict.keys, h.orders, List.map_map]
  exact known

def signedOunces (fills : List SourceFill) : ℚ := (fills.map SourceFill.signedFill).sum

def allocated (taken : List (SourceFill × ℤ)) : ℚ := (taken.map fun item => (item.2 : ℚ)).sum

/-- A standalone store takes every fill it has not seen. -/
theorem foldFills_takes {fills : List SourceFill} {s t : StoreState}
    (unseen : ∀ fill ∈ fills, fill.fillKey ∉ s.seenSourceFills)
    (distinct : (fills.map (·.fillKey)).Nodup)
    (known : ∀ fill ∈ fills, s.sourceOrders.get? fill.clientOrderId ≠ none)
    (h : fills.foldlM
      (fun t fill => Prod.fst <$> StoreState.applySourceFill digest t fill (some reason)) s =
      .ok t) :
    ∃ taken, fillsOfTaken taken = fills ∧ Appends digest (some reason) taken s t ∧
      t.netUnhedgedOunces = s.netUnhedgedOunces + signedOunces fills - allocated taken := by
  induction fills generalizing s with
  | nil =>
    simp only [List.foldlM_nil, pure_eq_ok] at h
    subst h
    exact ⟨[], rfl, .nil _, by simp [signedOunces, allocated]⟩
  | cons fill fills ih =>
    simp only [List.foldlM_cons, bind_eq_ok, map_eq_ok, Prod.exists] at h
    obtain ⟨_, ⟨mid, opened, applied, rfl⟩, loop⟩ := h
    obtain ⟨here, unseen⟩ := List.forall_mem_cons.1 unseen
    obtain ⟨listed, known⟩ := List.forall_mem_cons.1 known
    rw [List.map_cons, List.nodup_cons] at distinct
    obtain ⟨rounded, first, net⟩ := applySourceFill_takes here listed applied
    have later : ∀ other ∈ fills, other.fillKey ∉ mid.seenSourceFills := by
      intro other member
      apply first.unseen _ (unseen other member)
      intro same
      exact distinct.1 (same ▸ List.mem_map_of_mem member)
    obtain ⟨taken, same, rest, net'⟩ :=
      ih later distinct.2 (fun other member => first.known (known other member)) loop
    refine ⟨(fill, rounded) :: taken, by rw [← same]; rfl, first.append rest, ?_⟩
    rw [net', net]
    simp only [signedOunces, allocated, List.map_cons, List.sum_cons]
    ring

/-- The allocation that a fill was given. -/
def Allocates (fill : SourceFill) (item : Allocation) : Prop :=
  item.fillKey = fill.fillKey ∧ item.signedFillOunces = fill.signedFill

theorem ownerFill_takes {o filled : MakerStateStore} {v : ViewKey} {fill : SourceFill}
    {opened : Option HedgeIntent}
    (unseen : fill.fillKey ∉ (o.view v).seenSourceFills)
    (known : (o.view v).sourceOrders.get? fill.clientOrderId ≠ none)
    (h : o.applySourceFill digest v fill (some reason) = .ok (filled, opened)) :
    ∃ (rounded : ℤ) (item : Allocation), Appends digest (some reason) [(fill, rounded)] (o.view v)
      (filled.view v) ∧
      Allocates fill item ∧ item.allocatedOunces = rounded ∧
      filled.book.allocations = o.book.allocations ++ [item] ∧ filled.cfg = o.cfg ∧
      ∀ w, w ≠ v → filled.view w = o.view w := by
  unfold MakerStateStore.applySourceFill at h
  rw [if_neg unseen] at h
  split at h
  · rename_i none'
    exact absurd none' known
  · rename_i record found
    simp only [bind_eq_ok, Prod.exists, pure_eq_ok, Prod.mk.injEq] at h
    obtain ⟨recorded, booked, result, intent, made, rfl, -⟩ := h
    obtain ⟨side, positive, same⟩ := recordSourceFill_take booked
    have here :
      (o.cfg.allocate (o.book.setView v recorded) record fill.fillKey fill.signedFill).1.views v =
        recorded := by simp [OwnerConfig.allocate, Book.setView]
    rw [here] at made
    obtain ⟨appends, -⟩ := openHedgeIntent_takes made unseen found side positive (by rw [same])
    have stored (book : Book) (w : ViewKey) : (o.setBook (book.setView v result)).view w =
        if w = v then result else book.views w := by
      by_cases here : w = v
      · subst here
        simp [MakerStateStore.view, MakerStateStore.setBook, Book.setView]
      · simp [MakerStateStore.view, MakerStateStore.setBook, Book.setView, here]
    have taken := (stored (o.cfg.allocate (o.book.setView v recorded) record fill.fillKey
      fill.signedFill).1 v).trans (if_pos rfl)
    rw [← taken] at appends
    refine ⟨_, _, appends, ⟨rfl, rfl⟩, rfl, rfl, rfl, ?_⟩
    intro w other
    rw [stored, if_neg other]
    simp [OwnerConfig.allocate, Book.setView, other, MakerStateStore.view]

/-- An owner's view takes them, and the owner allocates them in turn. -/
theorem foldOwner_takes {fills : List SourceFill} {o changed : MakerStateStore} {v : ViewKey}
    (unseen : ∀ fill ∈ fills, fill.fillKey ∉ (o.view v).seenSourceFills)
    (distinct : (fills.map (·.fillKey)).Nodup)
    (known : ∀ fill ∈ fills, (o.view v).sourceOrders.get? fill.clientOrderId ≠ none)
    (h : fills.foldlM (fun o fill => Prod.fst <$> o.applySourceFill digest v fill (some reason)) o =
      .ok changed) :
    ∃ taken items, fillsOfTaken taken = fills ∧
      Appends digest (some reason) taken (o.view v) (changed.view v) ∧
      List.Forall₂ Allocates fills items ∧ OwnerConfig.owningCount items = openedCount taken ∧
      changed.book.allocations = o.book.allocations ++ items ∧
      changed.cfg = o.cfg ∧ ∀ w, w ≠ v → changed.view w = o.view w := by
  induction fills generalizing o with
  | nil =>
    simp only [List.foldlM_nil, pure_eq_ok] at h
    subst h
    exact ⟨[], [], rfl, .nil _, .nil, rfl, by simp, rfl, fun _ _ => rfl⟩
  | cons fill fills ih =>
    simp only [List.foldlM_cons, bind_eq_ok, map_eq_ok, Prod.exists] at h
    obtain ⟨_, ⟨mid, opened, applied, rfl⟩, loop⟩ := h
    obtain ⟨here, unseen⟩ := List.forall_mem_cons.1 unseen
    obtain ⟨listed, known⟩ := List.forall_mem_cons.1 known
    rw [List.map_cons, List.nodup_cons] at distinct
    obtain ⟨rounded, item, first, allocates, amount, allocations, cfg, others⟩ :=
      ownerFill_takes here listed applied
    have later : ∀ other ∈ fills, other.fillKey ∉ (mid.view v).seenSourceFills := by
      intro other member
      apply first.unseen _ (unseen other member)
      intro same
      exact distinct.1 (same ▸ List.mem_map_of_mem member)
    obtain ⟨taken, items, same, rest, allocates', owning, allocations', cfg', others'⟩ :=
      ih later distinct.2 (fun other member => first.known (known other member)) loop
    refine ⟨(fill, rounded) :: taken, item :: items, by rw [← same]; rfl, first.append rest,
      .cons allocates allocates', ?_, ?_, cfg'.trans cfg,
      fun w other => (others' w other).trans (others w other)⟩
    · rw [openedCount_cons, ← owning]
      simp [OwnerConfig.owningCount, openedCount, amount]
    · rw [allocations', allocations, List.append_assoc]
      rfl

end Fold

end SourceProjection

end ArbNautilus.Store
