import ArbNautilus.Store.Amounts
import ArbNautilus.Store.Lane
import ArbNautilus.Store.SortedFile

/-! Whatever an owner has been through, its file opens to the book it committed. -/

namespace ArbNautilus.Store

open Base

namespace OwnerConfig

variable {cfg : OwnerConfig} {b : Book}

theorem checkIntent_apart {s : StoreState} {side : Option BusinessOrderSide}
    {entries : List (String × HedgeIntent)} {acc reached : Identities × Dict String (Option String)}
    (loop : entries.foldlM (checkIntent s side) acc = .ok reached) :
    (∀ entry ∈ entries, Disjoint acc.1.hedgeIds (heldOrders entry.2)) ∧
      entries.Pairwise fun one two => Disjoint (heldOrders one.2) (heldOrders two.2) := by
  induction entries generalizing acc with
  | nil => simp
  | cons entry entries ih =>
    simp only [List.foldlM_cons, bind_eq_ok] at loop
    obtain ⟨next, turn, loop⟩ := loop
    obtain ⟨account, -, -, apart, rfl⟩ := checkIntent_eq_ok.1 turn
    obtain ⟨others, pairs⟩ := ih loop
    simp only [metIntent, Finset.disjoint_union_left] at others
    constructor
    · exact List.forall_mem_cons.2 ⟨apart, fun other member => (others other member).1⟩
    · exact List.pairwise_cons.2 ⟨fun other member => (others other member).2, pairs⟩

/-- What validation says of the hedge orders and hedge fills of a view. -/
structure HedgesNamed (s : StoreState) : Prop where
  apart : s.hedgeIntents.entries.Pairwise fun one two => Disjoint (heldOrders one.2)
    (heldOrders two.2)
  parts : ∀ fill ∈ s.seenHedgeFills, ∃ order trade, splitText '|' fill = [order, trade]

theorem hedgeTrade_parts {accounts : Dict String (Option String)} {fill : String}
    (traded : hedgeTrade accounts fill ≠ none) :
    ∃ order trade, splitText '|' fill = [order, trade] := by
  unfold hedgeTrade at traded
  split at traded
  · rename_i order trade parts
    exact ⟨order, trade, parts⟩
  · exact absurd rfl traded

theorem hedgesNamed_of_valid (valid : cfg.validate b = .ok ()) {v : ViewKey}
    (known : v ∈ cfg.viewKeys) :
    HedgesNamed (b.views v) := by
  unfold validate at valid
  rw [bind_unit_eq_ok, bind_unit_eq_ok, bind_eq_ok] at valid
  obtain ⟨-, -, ids, viewed, -⟩ := valid
  obtain ⟨before, after, turn⟩ := foldlM_turns viewed v known
  unfold checkView at turn
  simp only [bind_eq_ok, raiseIf_eq_ok, pure_eq_ok, exists_const] at turn
  obtain ⟨-, -, walked, -, -, trades, -, ⟨reached, accounts⟩, intents, hedged, hedges, -⟩ := turn
  constructor
  · exact (checkIntent_apart intents).2
  · intro fill seen
    unfold checkTrades at hedges
    rw [bind_unit_eq_ok, raiseIf_eq_ok] at hedges
    apply @hedgeTrade_parts accounts
    intro none
    exact hedges.1 ⟨fill, seen, none⟩

end OwnerConfig

/-- A fill of a current order is of no order that was archived. -/
theorem OwnerConfig.HedgesNamed.unretired {s : StoreState} (named : OwnerConfig.HedgesNamed s)
    {fill : HedgeFill}
    {intent : HedgeIntent} (found : s.intentForHedgeOrder fill.clientOrderId = some intent)
    (current : ¬isRejectedAttempt intent fill.clientOrderId)
    (parts : ∃ order trade, splitText '|' fill.fillKey = [order, trade]) : s.Unretired fill := by
  obtain ⟨order, trade, parts⟩ := parts
  obtain rfl := splitText_pair parts
  obtain ⟨bound, k, held⟩ := StoreState.intentForHedgeOrder_eq_some found
  have bound := bound.resolve_right current
  intro other member attempt archived head
  rw [parts, List.head?_cons, Option.some.injEq] at head
  obtain ⟨k', held'⟩ := (Dict.mem_values_iff _ _).1 member
  by_cases same : (k, intent) = (k', other)
  · obtain ⟨rfl, rfl⟩ := Prod.mk.inj same
    exact current ⟨attempt, archived, head.symm⟩
  · have symmetric : Std.Symm fun one two : String × HedgeIntent =>
        Disjoint (OwnerConfig.heldOrders one.2) (OwnerConfig.heldOrders two.2) :=
          ⟨fun _ _ apart => apart.symm⟩
    have apart := named.apart.forall ((Dict.mem_entries_iff _ _ _).2 held)
      ((Dict.mem_entries_iff _ _ _).2 held') same
    have retained := (other.sound.attempt attempt archived).retained
    have here : fill.clientOrderId ∈ OwnerConfig.heldOrders intent := by
      simp [OwnerConfig.heldOrders, bound]
    have there : fill.clientOrderId ∈ OwnerConfig.heldOrders other := by
      rw [OwnerConfig.heldOrders, head]
      simp [retained]
    exact Finset.disjoint_left.1 apart here there

section Kept

variable {args : OwnerArgs} {cfg : OwnerConfig} {b b' : Book}

theorem OwnerWritten.of_views (h : OwnerWritten args cfg b)
    (signed : ∀ item ∈ b'.allocations, Decimal.IsFraction item.signedFillOunces)
    (rounded : ∀ item ∈ b'.allocations, Decimal.IsFraction item.allocatedOunces)
    (views : ∀ v ∈ cfg.viewKeys, (b'.views v).Written)
    (absent : ∀ v ∉ cfg.viewKeys, b'.views v = .emptyState) : OwnerWritten args cfg b' :=
  ⟨h.config, h.standalone, h.unmigrated, h.sources, h.filled, h.allocated, signed, rounded, views,
    absent⟩

/-- One known view has changed. -/
theorem OwnerWritten.setView (h : OwnerWritten args cfg b) {v : ViewKey} (known : v ∈ cfg.viewKeys)
    {s : StoreState} (written : s.Written) (views : b'.views = (b.setView v s).views)
    (allocations : b'.allocations = b.allocations) : OwnerWritten args cfg b' := by
  apply h.of_views
  · rw [allocations]
    exact h.signed
  · rw [allocations]
    exact h.rounded
  · intro w member
    rw [views, Book.setView]
    by_cases here : w = v
    · subst here
      simpa using written
    · simpa [here] using h.views w member
  · intro w unknown
    have other : w ≠ v := by
      rintro rfl
      exact unknown known
    rw [views, Book.setView]
    simpa [other] using h.absent w unknown

/-- The freezes of some known views have changed. -/
theorem OwnerWritten.setFreezes (h : OwnerWritten args cfg b) (reasons : ViewKey → Option String)
    (views : ∀ v, b'.views v = MakerStateStore.freezeView (b.views v) (reasons v))
    (unfrozen : ∀ v ∉ cfg.viewKeys, reasons v = none)
    (allocations : b'.allocations = b.allocations) :
    OwnerWritten args cfg b' := by
  apply h.of_views
  · rw [allocations]
    exact h.signed
  · rw [allocations]
    exact h.rounded
  · intro v member
    rw [views v]
    exact (h.views v member).of_same rfl rfl rfl rfl
  · intro v unknown
    rw [views v, h.absent v unknown, unfrozen v unknown]
    rfl

namespace MakerStateStore

variable {o : MakerStateStore}

theorem persist_written {cfg : OwnerConfig} (committed : OwnerWritten args cfg o.committed)
    (h : OwnerWritten args cfg o.book) (pub : Publication) :
    OwnerWritten args cfg (o.persist pub).2.book := by
  obtain back | on := o.persist_book pub
  · rw [back]
    exact committed
  · rw [on]
    unfold candidate
    split
    · exact h.of_views h.signed h.rounded h.views h.absent
    · exact h

theorem commitView_written {α : Type} (settled : Settled o) (h : OwnerWritten args o.cfg o.book)
    {v : ViewKey}
    (known : v ∈ o.cfg.viewKeys) (pub : Publication) {c : Change StoreState α}
    (step : ∀ t, c.Yields t → OwnerConfig.HedgesNamed t → t.Written) :
    OwnerWritten args o.cfg (o.commitView v pub c).2.book := by
  obtain ⟨after, cfg⟩ := commitView_settled settled v pub c
  obtain same | ⟨t, yields, views, allocations⟩ := commitView_book settled v pub c
  · rw [same]
    exact h
  · have valid := after.valid
    rw [← after.same, cfg] at valid
    have named := OwnerConfig.hedgesNamed_of_valid valid known
    have here : (o.commitView v pub c).2.book.views v = t := by
      rw [views]
      simp [setView, Book.setView]
    rw [here] at named
    exact h.setView known (step t yields named) views allocations

theorem freezeExternal_written (settled : Settled o) (h : OwnerWritten args o.cfg o.book)
    (pub : Publication)
    (reason : String) {views : List ViewKey} (known : ∀ v ∈ views, v ∈ o.cfg.viewKeys) :
    OwnerWritten args o.cfg (o.freezeExternal pub reason views).2.book := by
  unfold freezeExternal
  split
  · exact h
  · split
    · have frozen : OwnerWritten args o.cfg ((o.setFreezes reason views).setBook
          { (o.setFreezes reason views).book with cycleFreezeOnly := false }).book := by
        refine h.setFreezes (fun v => if v ∈ views then
          some ((o.view v).sourceFreezeReason.getD reason) else (o.view v).sourceFreezeReason) ?_ ?_
            rfl
        · intro v
          simp only [MakerStateStore.setFreezes, setBook, view]
          split <;> rfl
        · intro v unknown
          have outside : v ∉ views := fun member => unknown (known v member)
          rw [if_neg outside, view, h.absent v unknown]
          rfl
      have stored := persist_written (settled.same ▸ h) frozen pub
      dsimp only
      split <;> rename_i result <;> rw [result] at stored <;> exact stored
    · exact h

theorem clearSourceFreezes_written (settled : Settled o) (h : OwnerWritten args o.cfg o.book)
    (pub : Publication) : OwnerWritten args o.cfg (o.clearSourceFreezes pub).2.book := by
  unfold clearSourceFreezes
  split
  · exact h
  · have thawed : OwnerWritten args o.cfg (o.setBook { o.book with
        views := fun v => freezeView (o.view v) none
        cycleFreezeOnly := false }).book :=
      h.setFreezes (fun _ => none) (fun _ => rfl) (fun _ _ => rfl) rfl
    have stored := persist_written (settled.same ▸ h) thawed pub
    split <;> rename_i result <;> rw [result] at stored <;> exact stored

theorem isFraction_signedFill {fill : SourceFill} (fraction : Decimal.IsFraction fill.fillOunces) :
    Decimal.IsFraction fill.signedFill := by
  unfold SourceFill.signedFill
  split
  · exact fraction
  · exact Decimal.isFraction_neg fraction

theorem applySourceFill_written {digest : String → String} {filled : MakerStateStore}
    (h : OwnerWritten args o.cfg o.book) {v : ViewKey} (known : v ∈ o.cfg.viewKeys)
    {fill : SourceFill}
    (fraction : Decimal.IsFraction fill.fillOunces) {blockedReason : Option String}
    {intent : Option HedgeIntent}
    (applied : o.applySourceFill digest v fill blockedReason = .ok (filled, intent)) :
    OwnerWritten args o.cfg filled.book := by
  unfold applySourceFill at applied
  split at applied
  · cases applied
    exact h
  · split at applied
    · cases applied
      exact h
    · rename_i record found
      simp only [bind_eq_ok, Prod.exists, pure_eq_ok, Prod.mk.injEq] at applied
      obtain ⟨recorded, booked, opened, result, made, rfl, -⟩ := applied
      have old := h.views v known
      have amounts : record.Written := old.order found
      have recorded_written := old.recordSourceFill_written amounts fraction booked
      have here : (o.cfg.allocate (o.book.setView v recorded) record fill.fillKey
          fill.signedFill).1.views v = recorded := by simp [OwnerConfig.allocate, Book.setView]
      rw [here] at made
      have opened_written := recorded_written.openHedgeIntent_written amounts fraction made
      have viewed : OwnerWritten args o.cfg (o.book.setView v opened) :=
        h.setView known opened_written rfl rfl
      apply viewed.of_views
      · intro item member
        obtain member | member := List.mem_append.1 member
        · exact h.signed item member
        · rw [List.mem_singleton.1 member]
          exact isFraction_signedFill fraction
      · intro item member
        obtain member | member := List.mem_append.1 member
        · exact h.rounded item member
        · rw [List.mem_singleton.1 member]
          exact Decimal.isFraction_intCast _
      · intro w member
        have same := viewed.views w member
        by_cases other : w = v
        · subst other
          simpa [setBook, Book.setView] using opened_written
        · simpa [setBook, Book.setView, OwnerConfig.allocate, other] using h.views w member
      · intro w unknown
        have other : w ≠ v := by
          rintro rfl
          exact unknown known
        simpa [setBook, Book.setView, OwnerConfig.allocate, other] using h.absent w unknown

theorem freezeForFill_written (h : OwnerWritten args o.cfg o.book) (fill : SourceFill) :
    OwnerWritten args o.cfg (o.freezeForFill fill).book := by
  refine h.setFreezes (fun v => if v ∈ o.cfg.viewKeys then
    some ((o.view v).sourceFreezeReason.getD (fillFreezeReason fill))
      else (o.view v).sourceFreezeReason)
    ?_ ?_ rfl
  · intro v
    simp only [freezeForFill, MakerStateStore.setFreezes, setBook, view]
    split <;> rfl
  · intro v unknown
    rw [if_neg unknown, view, h.absent v unknown]
    rfl

theorem reserveSourceFill_written {digest : String → String} (settled : Settled o)
    (h : OwnerWritten args o.cfg o.book) {v : ViewKey} (known : v ∈ o.cfg.viewKeys)
    (pub : Publication)
    {fill : SourceFill} (fraction : Decimal.IsFraction fill.fillOunces) :
    OwnerWritten args o.cfg (o.reserveSourceFill digest v pub fill).2.book := by
  unfold reserveSourceFill
  split
  · exact h
  · split
    · exact h
    · rename_i filled intent applied
      obtain ⟨committed, cfg⟩ := applySourceFill_committed applied
      have frozen := freezeForFill_written h fill
      have booked : OwnerWritten args o.cfg filled.book :=
        @applySourceFill_written args (o.freezeForFill fill) digest filled frozen v known fill
          fraction none
          intent applied
      have back : OwnerWritten args o.cfg filled.committed := by
        rw [committed]
        exact settled.same ▸ h
      have stored := persist_written back booked pub
      split <;> rename_i result
      · rw [result] at stored
        exact stored
      · split
        · rw [result] at stored
          exact stored
        · exact h

/-- Every call on a view leaves a book that its file can hold. -/
theorem callView_written {digest : String → String} (settled : Settled o)
    (h : OwnerWritten args o.cfg o.book) {v : ViewKey} (known : v ∈ o.cfg.viewKeys)
    (pub : Publication)
    {op : StoreOp} (decimals : op.Decimals) :
    OwnerWritten args o.cfg (o.callView digest v pub op).2.book := by
  have here : (o.view v).Written := h.views v known
  cases op with
  | freezeSourceSubmissions reason =>
    apply freezeExternal_written settled h pub reason
    intro w member
    rw [List.mem_singleton.1 member]
    exact known
  | clearSourceFreeze =>
    have stored := clearSourceFreezes_written settled h pub
    simp only [callView, clearSourceFreeze]
    split <;> rename_i result <;> rw [result] at stored
    · exact stored
    · split <;> exact stored
  | recoverForStart =>
    apply commitView_written settled h known pub
    intro t yields _
    exact here.recoverForStart_written ((Change.discard_yields _ _).1 yields)
  | beginSource request =>
    apply commitView_written settled h known pub
    intro t yields _
    exact here.beginSource_written decimals yields
  | updateSourceStatus clientOrderId status =>
    apply commitView_written settled h known pub
    intro t yields _
    exact here.updateSourceStatus_written yields
  | confirmSourceReconciled clientOrderId =>
    apply commitView_written settled h known pub
    intro t yields _
    exact here.confirmSourceReconciled_written yields
  | markSourceUnknown clientOrderId reason =>
    apply commitView_written settled h known pub
    intro t yields _
    exact here.markSourceUnknown_written yields
  | reserveSourceFill fill =>
    have stored := @reserveSourceFill_written args o digest settled h v known pub fill decimals
    simp only [callView]
    split <;> rename_i result <;> rw [result] at stored <;> exact stored
  | bindHedgeOrder intentId clientOrderId =>
    apply commitView_written settled h known pub
    intro t yields _
    exact here.bindHedgeOrder_written yields
  | bindHedgePlan intentId plan =>
    apply commitView_written settled h known pub
    intro t yields _
    exact here.bindHedgePlan_written decimals ((Change.discard_yields _ _).1 yields)
  | blockHedgeIntent intentId reason =>
    apply commitView_written settled h known pub
    intro t yields _
    exact here.blockHedgeIntent_written yields
  | updateHedgeStatus clientOrderId status nativeStatus =>
    apply commitView_written settled h known pub
    intro t yields _
    exact here.updateHedgeStatus_written yields
  | applyHedgeFill fill =>
    have old := settled.valid
    rw [← settled.same] at old
    have named := OwnerConfig.hedgesNamed_of_valid old known
    apply commitView_written settled h known pub
    intro t yields after
    have yields := (Change.discard_yields _ _).1 yields
    apply here.applyHedgeFill_written decimals _ yields
    intro intent found current seen
    exact named.unretired found current (after.parts fill.fillKey seen)
  | projectSourceFills | projectHedgeFills | settleCompleted => exact h

end MakerStateStore

end Kept

section Plain

variable {args : OwnerArgs}

theorem plain_optional {α : Type} {write : α → Value} (plain : ∀ a, (write a).Plain)
    (value : Option α) :
    (optionalJson write value).Plain := by
  cases value with
  | none => exact trivial
  | some a => exact plain a

theorem plain_text (text : String) : (textJson text).Plain := ⟨_, rfl⟩

theorem plain_decimal (q : ℚ) : (decimalJson q).Plain := ⟨_, rfl⟩

theorem plain_arr {α : Type} {write : α → Value} (plain : ∀ a, (write a).Plain) (values : List α) :
    (Json.arr (values.map write)).Plain := by
  rw [Json.Plain, plainItems_iff]
  intro item member
  obtain ⟨a, -, rfl⟩ := List.mem_map.1 member
  exact plain a

theorem plain_texts (texts : List String) : (textsJson texts).Plain := plain_arr plain_text texts

theorem key_injective : Function.Injective key := by
  intro a b same
  exact String.toList_inj.1 (PyStr.text.inj same)

theorem plain_rows {α : Type} {write : α → Value} (plain : ∀ a, (write a).Plain)
    (rows : Dict String α) :
    (rowsJson write rows).Plain := by
  rw [rowsJson, Json.Plain, plainMembers_iff, List.map_map]
  constructor
  · have distinct := rows.nodup.map key_injective
    rwa [List.map_map] at distinct
  · intro member listed
    obtain ⟨entry, -, rfl⟩ := List.mem_map.1 listed
    exact ⟨⟨_, rfl⟩, plain entry.2⟩

theorem plain_obj {row : Members} (nodup : (row.map Prod.fst).Nodup)
    (plain : ∀ member ∈ row, (∃ text, member.1 = .text text) ∧ member.2.Plain) :
    (Json.obj row).Plain := by
  rw [Json.Plain, plainMembers_iff]
  exact ⟨nodup, plain⟩

theorem plain_order (record : SourceOrderRecord) : record.toJson.Plain := by
  apply plain_obj (by simp [key])
  simp only [List.forall_mem_cons]
  simp [key, plain_text, plain_decimal, plain_optional plain_text, plain_optional plain_decimal]

theorem plain_leg (leg : HedgeLegFields) : leg.toJson.Plain := by
  have sides (side : Option BusinessOrderSide) :=
    plain_optional (fun side => plain_text side.value) side
  apply plain_obj (by simp [key])
  simp [key, plain_text, plain_decimal, plain_optional plain_text, plain_optional plain_decimal,
    sides]

theorem plain_attempt (attempt : RejectedFields) : attempt.toJson.Plain := by
  apply plain_obj (by simp [key])
  simp [key, plain_text, Json.Plain]

theorem plain_intent (intent : IntentFields) : intent.toJson.Plain := by
  have plan := plain_arr (fun leg : HedgeLeg => plain_leg leg.toHedgeLegFields) intent.hedgePlan
  have attempt :=
    plain_optional (fun attempt : RejectedHedgeAttempt => plain_attempt attempt.toRejectedFields)
    intent.rejectedAttempt
  have index : (Json.int intent.hedgeLegIndex : Value).Plain := trivial
  apply plain_obj (by simp [key])
  simp [key, plain_text, plain_decimal, plain_optional plain_text, plain_optional plain_decimal,
    plain_texts, plan, attempt, index]

theorem plain_payload (s : StoreState) : (Json.obj s.toPayload).Plain := by
  have version : (Json.int 2 : Value).Plain := trivial
  have intents :=
    plain_rows (fun intent : HedgeIntent => plain_intent intent.toIntentFields) s.hedgeIntents
  apply plain_obj (by simp [StoreState.toPayload, key])
  simp [StoreState.toPayload, key, plain_optional plain_text, plain_decimal, plain_texts, version,
    intents, plain_rows plain_order]

theorem plain_route (route : Route) : route.toJson.Plain := by
  apply plain_obj (by simp [key])
  simp [key, plain_optional plain_text]

theorem plain_allocation (item : Allocation) : item.toJson.Plain := by
  apply plain_obj (by simp [key])
  simp [key, plain_text, plain_decimal, plain_route]

theorem plain_legacyOrder (item : LegacyOrder) : item.toJson.Plain := by
  apply plain_obj (by simp [key])
  simp [key, plain_text, plain_decimal, plain_route, plain_texts]

theorem plain_legacySource (source : String × String) : (legacySourceJson source).Plain := by
  apply plain_obj (by simp [key])
  simp [key, plain_text]

theorem plain_checkpoint (sources : List (String × String)) (orders : List LegacyOrder) :
    (checkpointJson sources orders).Plain := by
  apply plain_obj (by simp [key])
  simp [key, plain_text, plain_arr plain_legacySource, plain_arr plain_legacyOrder]

theorem plain_bindings (ids : String × String) : (strategyBindings ids).Plain := by
  apply plain_obj (by simp [key])
  simp [key, plain_text]

theorem plain_directions (cfg : OwnerConfig) (b : Book) :
    (Json.obj (directionsJson cfg b)).Plain := by
  apply plain_obj (nodup_directions cfg b)
  intro member listed
  obtain ⟨v, -, rfl⟩ := List.mem_map.1 listed
  exact ⟨⟨_, rfl⟩, plain_payload (b.views v)⟩

theorem plain_owner (cfg : OwnerConfig) (b : Book) : (cfg.toPayload args b).Plain := by
  have version : (Json.int cfg.writtenVersion : Value).Plain := trivial
  have flag : (Json.bool b.cycleFreezeOnly : Value).Plain := trivial
  unfold OwnerConfig.toPayload
  cases cfg.sharedStrategyIds with
  | none =>
    cases cfg.legacySources with
    | none =>
      apply plain_obj (by simp [key])
      simp [key, plain_text, plain_arr plain_allocation, plain_directions, version, flag]
    | some sources =>
      apply plain_obj (by simp [key])
      simp [key, plain_text, plain_arr plain_allocation, plain_directions, version, flag,
        plain_checkpoint]
  | some ids =>
    cases cfg.legacySources with
    | none =>
      apply plain_obj (by simp [key])
      simp [key, plain_text, plain_arr plain_allocation, plain_directions, version, flag,
        plain_bindings]
    | some sources =>
      apply plain_obj (by simp [key])
      simp [key, plain_text, plain_arr plain_allocation, plain_directions, version, flag,
        plain_bindings, plain_checkpoint]

end Plain

section Files

variable (repr : Value → String) (floatText : Text → Text) (args : OwnerArgs)
  (digest : String → String)

/-- `json.loads` of a file; a float is kept as `str` writes it. -/
def fileHooks : JsonHooks Raised Text :=
  .plain (.valueError "Expecting value") floatText fun token =>
    .real (if token = "NaN".toList then "nan".toList
      else if token = "Infinity".toList then "inf".toList else "-inf".toList)

/-- What `_persist_payload` writes. -/
def OwnerConfig.fileText (cfg : OwnerConfig) (b : Book) :
    Text := dumpAscii id (cfg.toPayload args b)

/-- `__init__` over the text of a file. -/
def openFile (text : Text) : Except Raised MakerStateStore := do
  let file ← (fileHooks floatText).loads text
  openOwner repr args file

/-- The owner of a path without a file. -/
def newOwner : MakerStateStore := ⟨args.config none [], .empty, .empty, false⟩

/-- One step of an owner and its file: a call on one of its views, its own freeze, or a process
that ends, perhaps in a call, and one that opens the file it left. -/
inductive FileStep : MakerStateStore → MakerStateStore → Prop where
  | call (o : MakerStateStore) {v : ViewKey} {op : StoreOp} (pub : Publication)
      (known : v ∈ o.cfg.viewKeys) (decimals : op.Decimals) :
        FileStep o (o.callView digest v pub op).2
  | freeze (o : MakerStateStore) (reason : String) (pub : Publication) :
      FileStep o (o.freezeExternal pub reason o.cfg.viewKeys).2
  | restart {o o' : MakerStateStore}
      (opened : openFile repr floatText args (o.cfg.fileText args o.committed) = .ok o') :
        FileStep o o'

/-- What an owner can come to: it starts without a file, or over one that opens. -/
inductive FileReachable : MakerStateStore → Prop where
  | new : FileReachable (newOwner args)
  | opened {text : Text} {o : MakerStateStore}
    (opened : openFile repr floatText args text = .ok o) :
      FileReachable o
  | next {o o' : MakerStateStore} : FileReachable o → FileStep repr floatText args digest o o' →
      FileReachable o'

/-- An owner at rest whose file can hold its book. -/
structure Filed (o : MakerStateStore) : Prop where
  settled : Settled o
  written : OwnerWritten args o.cfg o.book

variable {repr floatText args digest}

theorem openOwner_filed {file : Value} {o : MakerStateStore}
    (opened : openOwner repr args file = .ok o) :
    Filed args o := by
  simp only [openOwner, bind_eq_ok, pure_eq_ok, Prod.exists] at opened
  obtain ⟨cfg, b, loaded, _, valid, rfl⟩ := opened
  exact ⟨⟨rfl, valid⟩, load_written loaded⟩

theorem openFile_filed {text : Text} {o : MakerStateStore}
    (opened : openFile repr floatText args text = .ok o) :
    Filed args o := by
  simp only [openFile, bind_eq_ok] at opened
  obtain ⟨file, -, opened⟩ := opened
  exact openOwner_filed opened

theorem checkView_empty (ids : OwnerConfig.Identities) (v : ViewKey) :
    OwnerConfig.checkView .empty ids v = .ok ids := by
  simp [OwnerConfig.checkView, OwnerConfig.checkTrades, Book.empty, StoreState.emptyState, raiseIf,
    Dict.empty]

/-- An empty book validates. -/
theorem validate_empty (args : OwnerArgs) : (args.config none []).validate .empty = .ok () := by
  have viewed : ∀ views : List ViewKey, ∀ ids : OwnerConfig.Identities,
      views.foldlM (OwnerConfig.checkView .empty) ids = .ok ids := by
    intro views
    induction views with
    | nil => exact fun _ => rfl
    | cons v views ih =>
      intro ids
      rw [List.foldlM_cons, checkView_empty]
      exact ih ids
  have keys := viewKeys_config args none []
  have intents : (args.config none []).intentsByFill .empty = .empty := by
    unfold OwnerConfig.intentsByFill
    rw [keys]
    cases args.sharedStrategyIds.isSome <;> rfl
  have records : (args.config none []).records .empty = .empty := by
    unfold OwnerConfig.records
    rw [keys]
    cases args.sharedStrategyIds.isSome <;> rfl
  have fills : (args.config none []).seenFills .empty = ∅ := by
    unfold OwnerConfig.seenFills
    rw [keys]
    cases args.sharedStrategyIds.isSome <;> rfl
  unfold OwnerConfig.validate OwnerConfig.validateAllocations OwnerConfig.openingTally
  rw [viewed, intents, records, fills]
  simp [OwnerArgs.config, Book.empty, StoreState.emptyState, raiseIf, Dict.empty]

theorem newOwner_filed : Filed args (newOwner args) := by
  refine ⟨⟨rfl, validate_empty args⟩, ?_⟩
  have empty : ∀ v, (newOwner args).book.views v = .emptyState := fun _ => rfl
  constructor
  · rfl
  · exact fun _ => rfl
  · exact fun _ => rfl
  · simp [newOwner, OwnerArgs.config]
  · simp [newOwner, OwnerArgs.config]
  · simp [newOwner, OwnerArgs.config]
  · simp [newOwner, Book.empty]
  · simp [newOwner, Book.empty]
  · intro v _
    rw [empty]
    exact StoreState.emptyState_written
  · exact fun v _ => empty v

theorem fileStep_filed {o o' : MakerStateStore} (h : Filed args o)
    (step : FileStep repr floatText args digest o o') : Filed args o' := by
  cases step with
  | call pub known decimals =>
    rename_i v op
    obtain ⟨settled, cfg⟩ := @MakerStateStore.callView_settled digest o h.settled v pub op
    have written :=
      @MakerStateStore.callView_written args o digest h.settled h.written v known pub op decimals
    exact ⟨settled, by rw [cfg]; exact written⟩
  | freeze reason pub =>
    obtain ⟨settled, cfg⟩ :=
      MakerStateStore.freezeExternal_settled h.settled pub reason o.cfg.viewKeys
    have written :=
      MakerStateStore.freezeExternal_written h.settled h.written pub reason fun v member => member
    exact ⟨settled, by rw [cfg]; exact written⟩
  | restart opened => exact openFile_filed opened

theorem fileReachable_filed {o : MakerStateStore} (h : FileReachable repr floatText args digest o) :
    Filed args o := by
  induction h with
  | new => exact newOwner_filed
  | opened opened => exact openFile_filed opened
  | next _ step ih => exact fileStep_filed ih step

/-- A file of an owner at rest opens to its book, the rows of its maps in the order of their
keys. -/
theorem openFile_fileText {o : MakerStateStore} (h : Filed args o) :
    openFile repr floatText args (o.cfg.fileText args o.committed) =
      .ok ⟨o.cfg, o.committed.ordered, o.committed.ordered, false⟩ := by
  have written : OwnerWritten args o.cfg o.committed := h.settled.same ▸ h.written
  have plain : (o.cfg.toPayload args o.committed).Plain := plain_owner o.cfg o.committed
  have reads : (fileHooks floatText).Reads := JsonHooks.plain_reads _ _ _
  have text := @loads_dumpAscii _ _ (fileHooks floatText) id reads _ plain
  have loaded := @load_sorted repr _ _ _ written
  have valid := OwnerConfig.validate_alike o.committed.ordered_alike.symm h.settled.valid
  simp only [openFile, OwnerConfig.fileText, text, openOwner, bind_eq_ok]
  exact ⟨_, rfl, _, loaded, (), valid, rfl⟩

/-- Whatever an owner has been through, what it holds is what its file opens to. -/
theorem owner_reopens {o : MakerStateStore} (h : FileReachable repr floatText args digest o) :
    o.book = o.committed ∧ openFile repr floatText args (o.cfg.fileText args o.committed) =
      .ok ⟨o.cfg, o.committed.ordered, o.committed.ordered, false⟩ ∧
        o.committed.ordered.Alike o.committed := by
  have filed := fileReachable_filed h
  exact ⟨filed.settled.same, openFile_fileText filed, o.committed.ordered_alike⟩

theorem FileReachable.run {o : MakerStateStore} (h : FileReachable repr floatText args digest o)
    {calls : List (ViewKey × StoreOp)} (known : ∀ call ∈ calls, call.1 ∈ o.cfg.viewKeys)
    (decimals : ∀ call ∈ calls, call.2.Decimals) :
    FileReachable repr floatText args digest (o.run digest calls) := by
  induction calls generalizing o with
  | nil => exact h
  | cons call calls ih =>
    have same : (o.callView digest call.1 .published call.2).2.cfg = o.cfg :=
      (MakerStateStore.callView_settled (fileReachable_filed h).settled call.1 .published call.2).2
    have first :=
      h.next (.call o .published (known call List.mem_cons_self) (decimals call List.mem_cons_self))
    apply ih first
    · intro other later
      rw [same]
      exact known other (List.mem_cons_of_mem _ later)
    · intro other later
      exact decimals other (List.mem_cons_of_mem _ later)

def fileArgs : OwnerArgs where
  instruments := ⟨"XAUT", "XAU"⟩
  sharedStrategyIds := some ("MAKER", "TAKER")

/-- Two fills of an order, the later trade first. -/
def twiceFilled : MakerStateStore := (newOwner fileArgs).run id [
  (.bid, .beginSource (sharedRequest "O-1")),
  (.bid, .reserveSourceFill ⟨"O-1|V-1|T-2", "O-1", "T-2", .buy, 7 / 5⟩),
  (.bid, .reserveSourceFill ⟨"O-1|V-1|T-1", "O-1", "T-1", .buy, 7 / 5⟩)]

theorem twiceFilled_reachable : FileReachable (fun _ => "") id fileArgs id twiceFilled := by
  apply FileReachable.new.run
  · decide
  · have fill : Decimal.IsFraction (7 / 5) := ⟨1, by decide +kernel⟩
    have request : (StoreOp.beginSource (sharedRequest "O-1")).Decimals :=
      ⟨⟨0, by decide +kernel⟩, by simp [sharedRequest]⟩
    simp only [List.forall_mem_cons]
    exact ⟨request, fill, fill, by simp⟩

theorem owner_reopens_twiceFilled : (twiceFilled.committed.views .bid).hedgeIntents.keys =
      ["hedge-O-1|V-1|T-2", "hedge-O-1|V-1|T-1"] ∧
    (twiceFilled.committed.ordered.views .bid).hedgeIntents.keys =
      ["hedge-O-1|V-1|T-1", "hedge-O-1|V-1|T-2"] ∧
    openFile (fun _ => "") id fileArgs (twiceFilled.cfg.fileText fileArgs twiceFilled.committed) =
      .ok ⟨twiceFilled.cfg, twiceFilled.committed.ordered, twiceFilled.committed.ordered, false⟩ :=
  ⟨by decide +kernel, by decide +kernel, (owner_reopens twiceFilled_reachable).2.1⟩

end Files

end ArbNautilus.Store
