import ArbNautilus.Base.JsonAscii
import ArbNautilus.Store.OwnerFile
import ArbNautilus.Store.Reorder

/-! The file of an owner as it is written: the keys of every object in their order. -/

namespace ArbNautilus.Store

open Base

/-- The order the keys of a file stand in. -/
def keyOrder (a b : String) : Prop := (key a).codes ≤ (key b).codes

instance : DecidableRel keyOrder :=
  fun a b => inferInstanceAs (Decidable ((key a).codes ≤ (key b).codes))

/-- The state with its rows in the order a file has them. -/
def StoreState.ordered (s : StoreState) : StoreState :=
  { s with
    sourceOrders := s.sourceOrders.reorder keyOrder
    hedgeIntents := s.hedgeIntents.reorder keyOrder }

def Book.ordered (b : Book) : Book := { b with views := fun v => (b.views v).ordered }

@[simp] theorem Book.ordered_views (b : Book) (v : ViewKey) :
    b.ordered.views v = (b.views v).ordered := rfl

theorem StoreState.ordered_alike (s : StoreState) : s.ordered.Alike s where
  sourceOrders := Dict.reorder_alike keyOrder s.sourceOrders
  activeSourceOrderId := rfl
  seenSourceFills := rfl
  seenHedgeFills := rfl
  hedgeIntents := Dict.reorder_alike keyOrder s.hedgeIntents
  netUnhedgedOunces := rfl
  haltReason := rfl
  sourceFreezeReason := rfl

theorem Book.ordered_alike (b : Book) : b.ordered.Alike b where
  views v := (b.views v).ordered_alike
  allocations := rfl
  cycleFreezeOnly := rfl

section Rows

variable {row row' : Members}

theorem item_perm (perm : row.Perm row') (nodup : (row.map Prod.fst).Nodup) :
    item row = item row' := by
  funext name
  rw [item, item, member?_perm perm nodup]

theorem itemOr_perm (perm : row.Perm row') (nodup : (row.map Prod.fst).Nodup) :
    itemOr row = itemOr row' := by
  funext name default
  rw [itemOr, itemOr, member?_perm perm nodup]

theorem keys_perm (perm : row.Perm row') (name : PyStr) :
    (row.map Prod.fst).contains name = (row'.map Prod.fst).contains name := by
  rw [Bool.eq_iff_iff, List.contains_iff_mem, List.contains_iff_mem, (perm.map Prod.fst).mem_iff]

theorem hasFields_perm (perm : row.Perm row') : hasFields row = hasFields row' := by
  funext names
  rw [hasFields, hasFields, perm.all_eq]
  congr 1
  exact List.all_congr rfl (keys_perm perm)

/-- What is read of an object does not depend on the order of its members. -/
def ReadsRows {α : Type} (read : Value → Except Raised α) : Prop :=
  ∀ row row' : Members, row.Perm row' → (row.map Prod.fst).Nodup →
    read (.obj row) = read (.obj row')

theorem read_sorted {α : Type} {read : Value → Except Raised α} (reads : ReadsRows read)
    {row : Members}
    (nodup : (row.map Prod.fst).Nodup) :
    read (sorted (.obj row)) = read (.obj (sortedMembers row)) := by
  apply reads _ _ (sortKeys_perm _)
  rw [((sortKeys_perm _).map Prod.fst).nodup_iff, keys_sortedMembers]
  exact nodup

end Rows

section Records

variable {repr : Value → String}

theorem membersOf_bind {α : Type} (row : Members) (f : Members → Except Raised α) :
    (membersOf (.obj row) >>= f) = f row := rfl

@[simp] theorem sorted_textJson (text : String) : sorted (textJson text) = textJson text := rfl

@[simp] theorem sorted_decimalJson (q : ℚ) : sorted (decimalJson q) = decimalJson q := rfl

theorem sorted_int (value : ℤ) : sorted (.int value : Value) = .int value := rfl

theorem sorted_text (text : PyStr) : sorted (.str text : Value) = .str text := rfl

theorem sorted_optionalJson {α : Type} (write : α → Value) (value : Option α) :
    sorted (optionalJson write value) = optionalJson (fun a => sorted (write a)) value := by
  cases value with
  | none => rfl
  | some a => rfl

@[simp] theorem sorted_optional_text (value : Option String) :
    sorted (optionalJson textJson value) = optionalJson textJson value := sorted_optionalJson _ _

@[simp] theorem sorted_optional_decimal (value : Option ℚ) :
    sorted (optionalJson decimalJson value) = optionalJson decimalJson value :=
      sorted_optionalJson _ _

theorem sorted_arr {α : Type} (write : α → Value) (values : List α) :
    sorted (.arr (values.map write)) = .arr (values.map fun a => sorted (write a)) := by
  rw [sorted, sortedItems_eq, List.map_map]
  rfl

@[simp] theorem sorted_textsJson (texts : List String) :
    sorted (textsJson texts) = textsJson texts :=
  sorted_arr textJson texts

theorem sourceOrderOf_rows : ReadsRows (sourceOrderOf repr) := by
  intro row row' perm nodup
  simp only [sourceOrderOf, membersOf_bind, item_perm perm nodup, itemOr_perm perm nodup]

theorem sourceOrderOf_sorted {record : SourceOrderRecord} (written : record.Written) :
    sourceOrderOf repr (sorted record.toJson) = .ok record := by
  have back := @sourceOrderOf_toJson repr _ written
  unfold SourceOrderRecord.toJson at back ⊢
  rw [read_sorted sourceOrderOf_rows (by simp [key])]
  simpa only [sortedMembers, sorted_textJson, sorted_decimalJson, sorted_optional_text,
    sorted_optional_decimal] using back

theorem hedgeLegOf_rows : ReadsRows (hedgeLegOf repr) := by
  intro row row' perm nodup
  simp only [hedgeLegOf, membersOf_bind, item_perm perm nodup, itemOr_perm perm nodup]

theorem hedgeLegOf_sorted {leg : HedgeLeg} (written : leg.toHedgeLegFields.Written) :
    hedgeLegOf repr (sorted leg.toHedgeLegFields.toJson) = .ok leg := by
  have back := @hedgeLegOf_toJson repr _ written
  unfold HedgeLegFields.toJson at back ⊢
  rw [read_sorted hedgeLegOf_rows (by simp [key])]
  simpa only [sortedMembers, sorted_textJson, sorted_decimalJson, sorted_optional_text,
    sorted_optional_decimal, sorted_optionalJson] using back

theorem rejectedAttemptOf_rows : ReadsRows rejectedAttemptOf := by
  intro row row' perm nodup
  simp only [rejectedAttemptOf, hasFields_perm perm, item_perm perm nodup]

theorem rejectedAttemptOf_sorted (attempt : RejectedHedgeAttempt) :
    rejectedAttemptOf (sorted attempt.toRejectedFields.toJson) = .ok attempt := by
  have back := rejectedAttemptOf_toJson attempt
  unfold RejectedFields.toJson at back ⊢
  rw [read_sorted rejectedAttemptOf_rows (by simp [key])]
  exact back

theorem hedgeIntentOf_rows : ReadsRows (hedgeIntentOf repr) := by
  intro row row' perm nodup
  simp only [hedgeIntentOf, membersOf_bind, item_perm perm nodup, itemOr_perm perm nodup]

theorem hedgeIntentOf_sorted {intent : HedgeIntent} (written : intent.toIntentFields.Written) :
    hedgeIntentOf repr (sorted intent.toIntentFields.toJson) = .ok intent := by
  have sourceFill := @decimalOf_decimalJson repr _ written.sourceFill
  have quantity := @decimalOf_decimalJson repr _ written.quantity
  have position := @optional_decimal repr _ written.position
  have filled := @decimalOf_decimalJson repr _ written.filled
  have legFilled := @decimalOf_decimalJson repr _ written.legFilled
  have plan : (intent.hedgePlan.map fun leg => sorted leg.toHedgeLegFields.toJson).mapM
    (hedgeLegOf repr) =
      .ok intent.hedgePlan :=
        mapM_reads fun leg member => hedgeLegOf_sorted (written.plan leg member)
  have orders : (intent.hedgeOrderIds.map textJson).mapM (strOf repr) = .ok intent.hedgeOrderIds :=
    mapM_reads fun text _ => strOf_textJson text
  have attempt : optionalOf rejectedAttemptOf
      (optionalJson (fun attempt => sorted attempt.toRejectedFields.toJson)
        intent.rejectedAttempt) =
        .ok intent.rejectedAttempt :=
    optionalOf_optionalJson (by simp [RejectedFields.toJson, sorted]) fun a _ =>
      rejectedAttemptOf_sorted a
  have made := intent.make_toFields
  unfold IntentFields.toJson
  rw [read_sorted hedgeIntentOf_rows (by simp [key])]
  simp [hedgeIntentOf, sortedMembers, sorted_optionalJson, sorted_arr, membersOf, item, itemOr,
    Json.member?,
    key, sourceFill, quantity, position, filled, legFilled, iterate, textsJson, plan, orders,
    attempt, made,
    sorted_int]

theorem routeOf_rows : ReadsRows routeOf := by
  intro row row' perm nodup
  simp only [routeOf, hasFields_perm perm, itemOr_perm perm nodup]

theorem routeOf_sorted (route : Route) : routeOf (sorted route.toJson) = .ok route := by
  have back := routeOf_toJson route
  unfold Route.toJson at back ⊢
  rw [read_sorted routeOf_rows (by simp [key])]
  simpa only [sortedMembers, sorted_optional_text] using back

theorem allocationOf_rows : ReadsRows (allocationOf repr) := by
  intro row row' perm nodup
  simp only [allocationOf, hasFields_perm perm, itemOr_perm perm nodup]

theorem allocationOf_sorted {item : Allocation} (signed : Decimal.IsFraction item.signedFillOunces)
    (allocated : Decimal.IsFraction item.allocatedOunces) :
    allocationOf repr (sorted item.toJson) = .ok item := by
  have fill := fillKeyOf_textJson item.fillKey
  have route := routeOf_sorted item.route
  have first := @numberOf_decimalJson repr _ signed
  have second := @numberOf_decimalJson repr _ allocated
  unfold Allocation.toJson
  rw [read_sorted allocationOf_rows (by simp [key])]
  simp [allocationOf, sortedMembers, hasFields, itemOr, Json.member?, key, fill, route, first,
    second]

theorem legacyOrderOf_rows : ReadsRows (legacyOrderOf repr) := by
  intro row row' perm nodup
  simp only [legacyOrderOf, hasFields_perm perm, itemOr_perm perm nodup]

theorem legacyOrderOf_sorted {item : LegacyOrder} (filled : Decimal.IsFraction item.filledOunces)
    (allocated : Decimal.IsFraction item.allocatedOunces) :
    legacyOrderOf repr (sorted item.toJson) = .ok item := by
  have named := fillKeyOf_textJson item.clientOrderId
  have direction := @directionOf_textJson repr item.direction
  have route := routeOf_sorted item.route
  have fills := textsOf_textsJson item.fillKeys
  have intents := textsOf_textsJson item.intentIds
  have first := @numberOf_decimalJson repr _ filled
  have second := @numberOf_decimalJson repr _ allocated
  unfold LegacyOrder.toJson
  rw [read_sorted legacyOrderOf_rows (by simp [key])]
  simp [legacyOrderOf, sortedMembers, hasFields, itemOr, Json.member?, key, named, direction, route,
    fills, intents, first, second]

theorem legacySourceOf_rows : ReadsRows legacySourceOf := by
  intro row row' perm nodup
  simp only [legacySourceOf, hasFields_perm perm, itemOr_perm perm nodup]

theorem legacySourceOf_sorted {source : String × String} (named : source.1 ≠ "")
    (digest : isDigest source.2) :
    legacySourceOf (sorted (legacySourceJson source)) = .ok source := by
  have back := legacySourceOf_json named digest
  unfold legacySourceJson at back ⊢
  rw [read_sorted legacySourceOf_rows (by simp [key])]
  exact back

theorem readCheckpoint_rows : ReadsRows (readCheckpoint repr) := by
  intro row row' perm nodup
  simp only [readCheckpoint, hasFields_perm perm, itemOr_perm perm nodup]

theorem readCheckpoint_sorted {sources : List (String × String)} {orders : List LegacyOrder}
    (written : SourcesWritten sources)
    (filled : ∀ item ∈ orders, Decimal.IsFraction item.filledOunces)
    (allocated : ∀ item ∈ orders, Decimal.IsFraction item.allocatedOunces) :
    readCheckpoint repr (sorted (checkpointJson sources orders)) = .ok (sources, orders) := by
  have paths : (sources.map fun source => sorted (legacySourceJson source)).mapM legacySourceOf =
      .ok sources := mapM_reads fun source member =>
    legacySourceOf_sorted (written.named source member) (written.digest source member)
  have items : (orders.map fun item => sorted item.toJson).mapM (legacyOrderOf repr) = .ok orders :=
    mapM_reads fun item member => legacyOrderOf_sorted (filled item member) (allocated item member)
  have count : ¬sources.length = 1 → sources.length = 2 := written.count.resolve_left
  have nodup := written.nodup
  unfold checkpointJson
  rw [read_sorted readCheckpoint_rows (by simp [key])]
  simp [readCheckpoint, sortedMembers, sorted_arr, hasFields, itemOr, Json.member?, key, isText,
    textJson, arrayOf, paths, items, nodup, sorted_text]
  exact count

end Records

section States

variable {repr : Value → String}

/-- The rows of a map, in the order of their keys. -/
theorem sortKeys_rows {α : Type} (write : α → Value) (rows : Dict String α) :
    sortKeys (sortedMembers (rows.entries.map fun entry => (key entry.1, write entry.2))) =
      (rows.reorder keyOrder).entries.map fun entry => (key entry.1, sorted (write entry.2)) := by
  rw [sortedMembers_eq, List.map_map, sortKeys, Dict.reorder]
  symm
  apply List.map_insertionSort
  intro a _ b _
  exact Iff.rfl

theorem rows_sorted {α : Type} {read : Value → Except Raised α} {write : α → Value}
    {rows : Dict String α}
    (reads : ∀ a ∈ rows.values, read (sorted (write a)) = .ok a) :
    (sortKeys (sortedMembers (rows.entries.map fun entry => (key entry.1, write entry.2)))).mapM
      (namedOf read) = .ok (rows.reorder keyOrder).entries := by
  have perm := (Dict.reorder_alike keyOrder rows).values
  rw [sortKeys_rows]
  apply @rows_read _ read (fun a => sorted (write a)) (rows.reorder keyOrder)
  intro a member
  exact reads a (perm.mem_iff.1 member)

theorem attemptMatchesSchema_rows (version : ℤ) : ReadsRows (attemptMatchesSchema version) := by
  intro row row' perm nodup
  simp only [attemptMatchesSchema, membersOf_bind, itemOr_perm perm nodup, keys_perm perm]

theorem attemptMatchesSchema_sorted (intent : IntentFields) :
    attemptMatchesSchema 2 (sorted intent.toJson) = .ok true := by
  unfold IntentFields.toJson
  rw [read_sorted (attemptMatchesSchema_rows 2) (by simp [key])]
  simp [attemptMatchesSchema, membersOf, sortedMembers]

theorem attempts_sorted (rows : Dict String HedgeIntent) :
    (sortKeys
      (sortedMembers
      (rows.entries.map fun entry => (key entry.1, entry.2.toIntentFields.toJson)))).mapM
      (fun member => attemptMatchesSchema 2 member.2) =
        .ok ((rows.reorder keyOrder).entries.map fun _ => true) := by
  have sortedRows := sortKeys_rows (fun intent : HedgeIntent => intent.toIntentFields.toJson) rows
  rw [sortedRows]
  generalize (rows.reorder keyOrder).entries = entries
  induction entries with
  | nil => rfl
  | cons entry entries ih =>
    rw [List.map_cons, List.mapM_cons, attemptMatchesSchema_sorted, ih]
    rfl

theorem fromPayload_perm {row row' : Members} (perm : row.Perm row')
    (nodup : (row.map Prod.fst).Nodup) :
    fromPayload repr row = fromPayload repr row' := by
  simp only [fromPayload, item_perm perm nodup, itemOr_perm perm nodup]

/-- A view reads back from its file. -/
theorem fromPayload_sorted {s : StoreState} (written : s.Written) :
    fromPayload repr (sortKeys (sortedMembers s.toPayload)) = .ok s.ordered := by
  have net := @decimalOf_decimalJson repr _ written.net
  have orders := @rows_sorted _ (sourceOrderOf repr) SourceOrderRecord.toJson s.sourceOrders
    fun record member => sourceOrderOf_sorted (written.orders record member)
  have intents := @rows_sorted _ (hedgeIntentOf repr) (fun intent => intent.toIntentFields.toJson)
    s.hedgeIntents fun intent member => hedgeIntentOf_sorted (written.intents intent member)
  have fitting := attempts_sorted s.hedgeIntents
  have sourceFills := fillKeysOf_textsJson s.seenSourceFills
  have hedgeFills := fillKeysOf_textsJson s.seenHedgeFills
  have values := (Dict.reorder_alike keyOrder s.hedgeIntents).values
  have retired : ¬∃ intent ∈ (s.hedgeIntents.reorder keyOrder).values,
      fillsOfAttempt intent s.seenHedgeFills := by
    rintro ⟨intent, member, fills⟩
    exact written.retired intent (values.mem_iff.1 member) fills
  have nodup : (s.toPayload.map Prod.fst).Nodup := by simp [StoreState.toPayload, key]
  have nodup' : ((sortKeys (sortedMembers s.toPayload)).map Prod.fst).Nodup := by
    rw [((sortKeys_perm _).map Prod.fst).nodup_iff, keys_sortedMembers]
    exact nodup
  rw [fromPayload_perm (sortKeys_perm _) nodup']
  have item {name : String} {value : Value} (written : Value)
    (named : Json.member? (key name) s.toPayload =
      some written) (same : sorted written = value) : item (sortedMembers s.toPayload) name =
        .ok value := by
    rw [Store.item, member?_sortedMembers, named, ← same]
    rfl
  have freeze : itemOr (sortedMembers s.toPayload) "source_freeze_reason" .null =
      optionalJson textJson s.sourceFreezeReason := by
    rw [Store.itemOr, member?_sortedMembers]
    exact sorted_optional_text _
  have version : itemOr (sortedMembers s.toPayload) "schema_version" .null = .int 2 := by
    rw [Store.itemOr, member?_sortedMembers]
    rfl
  simp only [fromPayload, version, freeze, bind_eq_ok, raiseIf_eq_ok, pure_eq_ok, exists_const]
  refine ⟨2, rfl, _, item _ rfl rfl, _, ⟨_, item _ rfl rfl, rfl⟩, _, fitting, by simp, _, rfl, _,
    orders, _,
    intents, _, ⟨_, item _ rfl (sorted_optional_text _), optional_text _⟩, _,
    ⟨_, item _ rfl (sorted_textsJson _), sourceFills⟩, _,
    ⟨_, item _ rfl (sorted_textsJson _), hedgeFills⟩, _,
    ⟨_, item _ rfl rfl, net⟩, _, ⟨_, item _ rfl (sorted_optional_text _), optional_text _⟩, _,
    optional_text _, ?_, ?_⟩
  · rw [ofList_entries]
    exact retired
  · rw [ofList_entries, ofList_entries]
    rfl

end States

section Owner

variable {repr : Value → String} {args : OwnerArgs} {cfg : OwnerConfig} {b : Book}

theorem nodup_directions (cfg : OwnerConfig) (b : Book) :
    ((directionsJson cfg b).map Prod.fst).Nodup := by
  unfold directionsJson OwnerConfig.viewKeys
  split_ifs <;> simp [key, ViewKey.name]

theorem nodup_sorted {row : Members} (nodup : (row.map Prod.fst).Nodup) :
    ((sortKeys (sortedMembers row)).map Prod.fst).Nodup := by
  rw [((sortKeys_perm _).map Prod.fst).nodup_iff, keys_sortedMembers]
  exact nodup

theorem readView_sorted (written : OwnerWritten args cfg b) (v : ViewKey) :
    readView repr args (sortKeys (sortedMembers (directionsJson cfg b))) v =
      .ok (b.ordered.views v) := by
  have same : (args.config none []).viewKeys = cfg.viewKeys := by
    rw [written.config]
    rfl
  unfold readView
  rw [same]
  by_cases known : v ∈ cfg.viewKeys
  · have reads := @fromPayload_sorted repr _ (written.views v known)
    have found : Json.member? (key v.name) (directionsJson cfg b) =
        some (.obj (b.views v).toPayload) := by
      rw [directionsJson, ← same, viewKeys_config]
      rw [← same, viewKeys_config] at known
      cases shared : args.sharedStrategyIds.isSome <;> cases v <;>
        simp [shared, Json.member?, key, ViewKey.name] at known ⊢
    rw [if_pos known, itemOr, member?_sorted _ (nodup_directions cfg b), found]
    simpa [membersOf, sorted] using reads
  · rw [if_neg known, Book.ordered_views, written.absent v known]
    rfl

theorem directions_fields (cfg : OwnerConfig) (b : Book) :
    hasFields (sortKeys (sortedMembers (directionsJson cfg b)))
      (cfg.viewKeys.map ViewKey.name) = true := by
  have fields := directionsJson_fields cfg b
  rw [hasFields_perm (sortKeys_perm _)]
  unfold hasFields at fields ⊢
  rw [keys_sortedMembers, sortedMembers_eq, List.all_map]
  exact fields

theorem hasSchema_sorted (s : StoreState) : hasSchema 2 (sorted (.obj s.toPayload)) = true := by
  have nodup : (s.toPayload.map Prod.fst).Nodup := by simp [StoreState.toPayload, key]
  rw [sorted, hasSchema, itemOr, member?_sorted _ nodup]
  rfl

theorem directions_schema (cfg : OwnerConfig) (b : Book) :
    ¬∃ member ∈ sortKeys (sortedMembers (directionsJson cfg b)), hasSchema 2 member.2 = false := by
  rintro ⟨member, listed, other⟩
  rw [(sortKeys_perm _).mem_iff, sortedMembers_eq] at listed
  obtain ⟨original, inside, rfl⟩ := List.mem_map.1 listed
  obtain ⟨v, -, rfl⟩ := List.mem_map.1 inside
  rw [hasSchema_sorted] at other
  cases other

theorem readAllocations_sorted (written : OwnerWritten args cfg b) :
    readAllocations repr (sorted (.arr (b.allocations.map Allocation.toJson))) =
      .ok b.allocations := by
  rw [sorted_arr]
  exact mapM_reads fun item member =>
    allocationOf_sorted (written.signed item member) (written.rounded item member)

/-- What a file's version says of its checkpoint. -/
theorem legacy_sorted (written : OwnerWritten args cfg b) {row : Members}
    (checkpoint : ∀ sources ∈ cfg.legacySources,
      itemOr row "legacy_checkpoint" .null = sorted (checkpointJson sources cfg.legacyOrders)) :
    (if cfg.writtenVersion ∈ [4, 6, 8] then
        some <$> readCheckpoint repr (itemOr row "legacy_checkpoint" .null) else .ok none) =
      .ok (cfg.legacySources.map fun sources => (sources, cfg.legacyOrders)) := by
  cases migrated : cfg.legacySources with
  | none =>
    have other : cfg.writtenVersion ∉ [4, 6, 8] := by
      unfold OwnerConfig.writtenVersion
      rw [migrated]
      cases cfg.sharedStrategyIds.isSome <;> decide
    rw [if_neg other]
    rfl
  | some sources =>
    have alone : cfg.sharedStrategyIds = none := by
      rw [written.config]
      by_contra shared
      have none := written.standalone (Option.isSome_iff_ne_none.2 shared)
      rw [migrated] at none
      cases none
    have eight : cfg.writtenVersion = 8 := by
      unfold OwnerConfig.writtenVersion
      rw [alone, migrated]
      rfl
    rw [eight, if_pos (by decide), checkpoint sources migrated,
      readCheckpoint_sorted (written.sources sources migrated) written.filled written.allocated]
    rfl

theorem config_legacy (written : OwnerWritten args cfg b) :
    args.config ((cfg.legacySources.map fun sources => (sources, cfg.legacyOrders)).map Prod.fst)
      (((cfg.legacySources.map fun sources => (sources, cfg.legacyOrders)).map Prod.snd).getD []) =
        cfg := by
  cases migrated : cfg.legacySources with
  | none =>
    have none := written.unmigrated migrated
    rw [written.config, migrated, none]
    rfl
  | some sources =>
    rw [written.config, migrated]
    rfl

theorem loadState_sorted (written : OwnerWritten args cfg b) {row : Members}
    (allocations : itemOr row "allocations" .null =
      sorted (.arr (b.allocations.map Allocation.toJson)))
    (checkpoint : ∀ sources ∈ cfg.legacySources,
      itemOr row "legacy_checkpoint" .null = sorted (checkpointJson sources cfg.legacyOrders)) :
    loadState repr args cfg.writtenVersion b.cycleFreezeOnly row
      (sortKeys (sortedMembers (directionsJson cfg b))) = .ok (cfg, b.ordered) := by
  have same : (args.config none []).viewKeys = cfg.viewKeys := by
    rw [written.config]
    rfl
  have version : expectedSchema cfg.writtenVersion = 2 := by
    unfold OwnerConfig.writtenVersion
    split_ifs <;> rfl
  have fields := directions_fields cfg b
  have schema := directions_schema cfg b
  have items := @readAllocations_sorted repr _ _ _ written
  have legacy := @legacy_sorted repr _ _ _ written row checkpoint
  have views := @readView_sorted repr _ _ _ written
  have whole : (⟨viewsOf (b.ordered.views .bid) (b.ordered.views .ask) (b.ordered.views .taker),
      b.allocations, b.cycleFreezeOnly⟩ : Book) = b.ordered := by
    unfold Book.ordered
    congr 1
    funext v
    cases v <;> rfl
  simp only [loadState, bind_eq_ok, raiseIf_eq_ok, exists_const]
  refine ⟨by simp [same, fields], by rwa [version], orInvalid_of_ok ?_⟩
  have both := congrArg₂ Prod.mk (config_legacy written) whole
  rw [allocations]
  split at legacy <;> rename_i migrated
  · rw [if_pos migrated, legacy, items, views .bid, views .ask, views .taker]
    exact congrArg Except.ok both
  · rw [if_neg migrated, items, views .bid, views .ask, views .taker]
    rw [← Except.ok.inj legacy] at both
    exact congrArg Except.ok both

theorem load_rows : ReadsRows (load repr args) := by
  intro row row' perm nodup
  have state (version : ℤ) (cycleFreezeOnly : Bool) :
      loadState repr args version cycleFreezeOnly row =
        loadState repr args version cycleFreezeOnly row' := by
    funext directions
    simp only [loadState, itemOr_perm perm nodup]
  simp only [load, hasFields_perm perm, itemOr_perm perm nodup, state]

theorem isStrategyBindings_sorted (ids : String × String) :
    isStrategyBindings (sorted (strategyBindings ids)) (some ids) = true := by
  have texts := isText_textJson
  have nodup :
    (([(key "bid", textJson ids.1), (key "ask", textJson ids.1), (key "taker", textJson ids.2)] :
      Members).map Prod.fst).Nodup := by simp [key]
  rw [strategyBindings, sorted, isStrategyBindings, hasFields_perm (sortKeys_perm _),
    itemOr_perm (sortKeys_perm _) (nodup_sorted nodup)]
  simp [sortedMembers, hasFields, itemOr, Json.member?, key, texts]

/-- An owner reads back from its file. -/
theorem load_sorted (written : OwnerWritten args cfg b) :
    load repr args (sorted (cfg.toPayload args b)) = .ok (cfg, b.ordered) := by
  have shared : cfg.sharedStrategyIds = args.sharedStrategyIds := by
    rw [written.config]
    rfl
  have texts := isText_textJson
  have bindings := isStrategyBindings_sorted
  have flag : sorted (.bool b.cycleFreezeOnly : Value) = .bool b.cycleFreezeOnly := rfl
  have directions : sorted (.obj (directionsJson cfg b)) =
      .obj (sortKeys (sortedMembers (directionsJson cfg b))) := rfl
  have state := @loadState_sorted repr _ _ _ written
  unfold OwnerConfig.toPayload
  cases ids : args.sharedStrategyIds with
  | none =>
    rw [ids] at shared
    cases migrated : cfg.legacySources with
    | none =>
      have version : cfg.writtenVersion = 7 := by
        simp [OwnerConfig.writtenVersion, shared, migrated]
      rw [read_sorted load_rows (by simp [shared, key])]
      rw [version] at state ⊢
      simp [load, shared, sortedMembers, itemOr, Json.member?, key, versionOf, ownerFields,
        hasFields, isStrategyBindings, boolOf, texts, ids, sorted_int, flag, directions]
      apply state
      · simp [itemOr, Json.member?, key]
      · simp [migrated]
    | some sources =>
      have version : cfg.writtenVersion = 8 := by
        simp [OwnerConfig.writtenVersion, shared, migrated]
      rw [read_sorted load_rows (by simp [shared, key])]
      rw [version] at state ⊢
      simp [load, shared, sortedMembers, itemOr, Json.member?, key, versionOf, ownerFields,
        hasFields, isStrategyBindings, boolOf, texts, ids, sorted_int, flag, directions]
      apply state
      · simp [itemOr, Json.member?, key]
      · simp [migrated, itemOr, Json.member?, key]
  | some ids' =>
    have migrated := written.standalone (by rw [ids]; rfl)
    rw [ids] at shared
    have version : cfg.writtenVersion = 9 := by simp [OwnerConfig.writtenVersion, shared]
    rw [read_sorted load_rows (by simp [shared, migrated, key])]
    rw [version] at state ⊢
    simp [load, shared, migrated, sortedMembers, itemOr, Json.member?, key, versionOf, ownerFields,
      hasFields, boolOf, texts, ids, sorted_int, flag, directions, bindings]
    apply state
    · simp [itemOr, Json.member?, key]
    · simp [migrated]

end Owner

end ArbNautilus.Store
