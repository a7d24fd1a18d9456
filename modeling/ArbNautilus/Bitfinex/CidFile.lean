import ArbNautilus.Bitfinex.Cids

namespace ArbNautilus.Bitfinex.Cids

open Base Handler
open Store (Publication)

section Records

structure CidBinding.Valid (binding : CidBinding) : Prop where
  client : binding.clientOrderId.isEmpty = false
  cid_pos : 1 ≤ binding.cid
  cid_le : binding.cid ≤ maxCid
  date : canonicalDate binding.allocatedUtcDate = true

/-- What the execution client has checked of a fill before it records it. -/
structure NativeFill.Valid (fill : NativeFill Decimal) : Prop where
  named : fill.tradeId.isEmpty = false
  origin : fill.nativeFillOrigin ∈ fillOrigins
  liquidity : fill.liquiditySide ∈ liquiditySides
  quantity : fill.signedQuantity.value ≠ 0
  price : 0 < fill.price.value
  time : 0 ≤ fill.tsEventNs
  currency : fill.commissionCurrency.isEmpty = false

/-- What the execution client has checked of a trade before it records it. -/
structure FeeTrade.Valid (trade : FeeTrade Decimal) : Prop where
  named : 0 < trade.tradeId
  time : 0 ≤ trade.tsEventMs
  quantity : trade.executionQty.value ≠ 0
  price : 0 < trade.executionPrice.value
  kind : trade.orderType ∈ orderTypes
  orderPrice : 0 < trade.orderPrice.value
  final : trade.rawFee.isNone = trade.feeCurrency.isNone
  currency : ∀ currency ∈ trade.feeCurrency, currency.isEmpty = false

structure FeeMetadata.ScopeValid (metadata : FeeMetadata Decimal) : Prop where
  venue : 0 < metadata.venueOrderId
  instrument : metadata.instrumentId.isEmpty = false
  symbol : metadata.rawSymbol.isEmpty = false

structure FeeMetadata.Valid (metadata : FeeMetadata Decimal) :
    Prop extends metadata.ScopeValid where
  cid_pos : 1 ≤ metadata.cid
  cid_le : metadata.cid ≤ maxCid
  fills : ∀ fill ∈ metadata.nativeFills, fill.Valid
  trades : ∀ trade ∈ metadata.venueTrades, trade.Valid
  fillsOnce : (metadata.nativeFills.map (·.tradeId)).Nodup
  tradesOnce : (metadata.venueTrades.map (·.tradeId)).Nodup

theorem text_eq_ok {value : Json ℚ} {label : String} {read : PyStr} :
    text value label = .ok read ↔ ∃ s, value = .str s ∧ s.isEmpty = false ∧ s = read := by
  constructor
  · intro h
    unfold text at h
    split at h
    · split at h
      · cases h
      · rename_i full
        cases h
        exact ⟨_, rfl, by simpa using full, rfl⟩
    · cases h
  · rintro ⟨s, rfl, full, rfl⟩
    simp [text, full]

theorem nonnegativeInt_eq_ok {value : Json ℚ} {label : String} {read : ℤ} :
    nonnegativeInt value label = .ok read ↔ ∃ n, value = .int n ∧ 0 ≤ n ∧ n = read := by
  constructor
  · intro h
    unfold nonnegativeInt at h
    split at h
    · split at h
      · cases h
      · rename_i low
        cases h
        exact ⟨_, rfl, by omega, rfl⟩
    · cases h
  · rintro ⟨n, rfl, low, rfl⟩
    simp only [nonnegativeInt]
    rw [if_neg (by omega)]

theorem never_text (value : Json ℚ) (label : String) :
    Never .parentDirectorySync (text value label) := by
  unfold text
  split
  · split
    · exact never_error nofun
    · exact never_ok _
  · exact never_error nofun

theorem never_nonnegativeInt (value : Json ℚ) (label : String) :
    Never .parentDirectorySync (nonnegativeInt value label) := by
  unfold nonnegativeInt
  split
  · split
    · exact never_error nofun
    · exact never_ok _
  · exact never_error nofun

theorem cidOf_eq_ok {value : Json ℚ} {read : ℤ} :
    cidOf value = .ok read ↔ ∃ n, value = .int n ∧ 1 ≤ n ∧ n ≤ maxCid ∧ n = read := by
  simp only [cidOf, bind_eq_ok, nonnegativeInt_eq_ok, raiseIf_eq_ok, not_not, pure_eq_ok]
  constructor
  · rintro ⟨_, ⟨n, rfl, -, rfl⟩, _, ⟨low, high⟩, rfl⟩
    exact ⟨n, rfl, low, high, rfl⟩
  · rintro ⟨n, rfl, low, high, rfl⟩
    exact ⟨n, ⟨n, rfl, by omega, rfl⟩, (), ⟨low, high⟩, rfl⟩

theorem decimalOf_value {value : Json ℚ} {nonzero positive : Bool} {read : Decimal}
    (h : decimalOf value nonzero positive = .ok read) :
    (nonzero = true → read.value ≠ 0) ∧ (positive = true → 0 < read.value) := by
  unfold decimalOf at h
  split at h
  · split at h
    · cases h
    · cases h
    · split at h
      · cases h
      · rename_i fine
        cases h
        simp only [not_or, not_and, not_le] at fine
        exact ⟨fine.1, fine.2⟩
  · cases h
  · cases h

theorem decimalOf_decimalJson {d : Decimal} {nonzero positive : Bool}
    (some : nonzero = true → d.value ≠ 0) (more : positive = true → 0 < d.value) :
    decimalOf (decimalJson d) nonzero positive = .ok d.settled := by
  simp only [decimalOf, decimalJson, Decimal.parse_format, Decimal.value_settled]
  rw [if_neg]
  rintro (⟨flag, none⟩ | ⟨flag, less⟩)
  · exact some flag none
  · exact absurd (more flag) (not_lt.2 less)

theorem bindingOf_toJson {binding : CidBinding} (valid : binding.Valid) :
    bindingOf binding.toJson = .ok binding := by
  have allocated : binding.allocatedUtcDate.isEmpty = false := by
    have canonical := valid.date
    cases same : binding.allocatedUtcDate with
    | text value =>
      rw [same] at canonical
      cases value with
      | nil => cases canonical
      | cons => rfl
    | broken codes =>
      rw [same] at canonical
      cases canonical
  have date : text (.str binding.allocatedUtcDate) "allocated_utc_date" = .ok _ :=
    text_eq_ok.2 ⟨_, rfl, allocated, rfl⟩
  have client : text (.str binding.clientOrderId) "client_order_id" = .ok _ :=
    text_eq_ok.2 ⟨_, rfl, valid.client, rfl⟩
  have cid : cidOf (.int binding.cid) = .ok _ :=
    cidOf_eq_ok.2 ⟨_, rfl, valid.cid_pos, valid.cid_le, rfl⟩
  simp [bindingOf, CidBinding.toJson, hasFields, get, Json.member?, key, date, client, cid,
    valid.date]

theorem bindingOf_valid {value : Json ℚ} {binding : CidBinding}
    (h : bindingOf value = .ok binding) : binding.Valid := by
  unfold bindingOf at h
  split at h
  · simp only [bind_eq_ok, raiseIf_eq_ok, Bool.not_eq_false, text_eq_ok, cidOf_eq_ok,
      pure_eq_ok] at h
    obtain ⟨_, -, _, ⟨date, -, -, rfl⟩, _, canonical, _, ⟨client, -, named, rfl⟩, _,
      ⟨cid, -, low, high, rfl⟩, rfl⟩ := h
    exact ⟨named, low, high, canonical⟩
  · cases h

theorem not_empty_of_mem {values : List PyStr} (full : ∀ value ∈ values, value.isEmpty = false)
    {value : PyStr} (member : value ∈ values) : value.isEmpty = false := full value member

theorem nativeFillOf_toJson {fill : NativeFill Decimal} (valid : fill.Valid) :
    nativeFillOf fill.toJson = .ok (fill.map Decimal.settled) := by
  have origin : text (.str fill.nativeFillOrigin) "native_fill_origin" = .ok _ :=
    text_eq_ok.2 ⟨_, rfl, not_empty_of_mem (by decide) valid.origin, rfl⟩
  have liquidity : text (.str fill.liquiditySide) "liquidity_side" = .ok _ :=
    text_eq_ok.2 ⟨_, rfl, not_empty_of_mem (by decide) valid.liquidity, rfl⟩
  have trade : text (.str fill.tradeId) "trade_id" = .ok _ :=
    text_eq_ok.2 ⟨_, rfl, valid.named, rfl⟩
  have currency : text (.str fill.commissionCurrency) "commission_currency" = .ok _ :=
    text_eq_ok.2 ⟨_, rfl, valid.currency, rfl⟩
  have time : nonnegativeInt (.int fill.tsEventNs) "ts_event_ns" = .ok _ :=
    nonnegativeInt_eq_ok.2 ⟨_, rfl, valid.time, rfl⟩
  have quantity :=
    @decimalOf_decimalJson fill.signedQuantity true false (fun _ => valid.quantity) nofun
  have price := @decimalOf_decimalJson fill.price false true nofun fun _ => valid.price
  have commission := @decimalOf_decimalJson fill.commission false false nofun nofun
  simp [nativeFillOf, NativeFill.toJson, fields, hasFields, get, Json.member?, key, origin,
    liquidity, trade, currency, time, quantity, price, commission, valid.origin, valid.liquidity,
    NativeFill.map]

theorem nativeFillOf_valid {value : Json ℚ} {fill : NativeFill Decimal}
    (h : nativeFillOf value = .ok fill) : fill.Valid := by
  simp only [nativeFillOf, bind_eq_ok, raiseIf_eq_ok, text_eq_ok, nonnegativeInt_eq_ok, pure_eq_ok,
    not_or, not_not] at h
  obtain ⟨_, -, _, ⟨_, -, -, rfl⟩, _, ⟨_, -, -, rfl⟩, _, ⟨origin, liquidity⟩, _,
    ⟨_, -, named, rfl⟩, _, quantity, _, price, _, ⟨_, -, time, rfl⟩, _, -, _,
    ⟨_, -, currency, rfl⟩, rfl⟩ := h
  exact ⟨named, origin, liquidity, (decimalOf_value quantity).1 rfl, (decimalOf_value price).2 rfl,
    time, currency⟩

theorem optional_read {α : Type} {read : Json ℚ → Except CidError α} {write : α → Json ℚ}
    {settle : α → α} {value : Option α} (present : ∀ a ∈ value, isNull (write a) = false)
    (reads : ∀ a ∈ value, read (write a) = .ok (settle a)) :
    optional read ((value.map write).getD .null) = .ok (value.map settle) ∧
      isNull ((value.map write).getD .null) = value.isNone := by
  cases value with
  | none => exact ⟨rfl, rfl⟩
  | some a =>
    have shown := present a rfl
    simp [optional, shown, reads a rfl]

theorem feeTradeOf_toJson {trade : FeeTrade Decimal} (valid : trade.Valid) :
    feeTradeOf trade.toJson = .ok (trade.map Decimal.settled) := by
  have named : nonnegativeInt (.int trade.tradeId) "trade_id" = .ok _ :=
    nonnegativeInt_eq_ok.2 ⟨_, rfl, valid.named.le, rfl⟩
  have time : nonnegativeInt (.int trade.tsEventMs) "ts_event_ms" = .ok _ :=
    nonnegativeInt_eq_ok.2 ⟨_, rfl, valid.time, rfl⟩
  have kind : text (.str trade.orderType) "order_type" = .ok _ :=
    text_eq_ok.2 ⟨_, rfl, not_empty_of_mem (by decide) valid.kind, rfl⟩
  have quantity :=
    @decimalOf_decimalJson trade.executionQty true false (fun _ => valid.quantity) nofun
  have price := @decimalOf_decimalJson trade.executionPrice false true nofun fun _ => valid.price
  have orderPrice :=
    @decimalOf_decimalJson trade.orderPrice false true nofun fun _ => valid.orderPrice
  obtain ⟨fee, noFee⟩ := @optional_read _ (decimalOf · false false) decimalJson Decimal.settled
    trade.rawFee (fun _ _ => rfl) fun d _ => @decimalOf_decimalJson d false false nofun nofun
  obtain ⟨currency, noCurrency⟩ := @optional_read _ (text · "fee_currency") .str id
    trade.feeCurrency (fun _ _ => rfl) fun s member =>
      text_eq_ok.2 ⟨_, rfl, valid.currency s member, rfl⟩
  have both : isNull ((trade.rawFee.map decimalJson).getD .null) =
      isNull ((trade.feeCurrency.map Json.str).getD .null) := by
    rw [noFee, noCurrency, valid.final]
  simp [feeTradeOf, FeeTrade.toJson, fields, hasFields, get, Json.member?, key, boolOf, named, time,
    kind, quantity, price, orderPrice, fee, currency, both, valid.kind, valid.named.ne',
    FeeTrade.map]

theorem optional_isNone {α : Type} {read : Json ℚ → Except CidError α} {value : Json ℚ}
    {result : Option α} (h : optional read value = .ok result) : result.isNone = isNull value := by
  unfold optional at h
  split at h
  · rename_i none
    cases h
    rw [none]
    rfl
  · rename_i some
    simp only [map_eq_ok] at h
    obtain ⟨a, -, rfl⟩ := h
    simpa using some

theorem feeTradeOf_valid {value : Json ℚ} {trade : FeeTrade Decimal}
    (h : feeTradeOf value = .ok trade) : trade.Valid := by
  simp only [feeTradeOf, bind_eq_ok, nonnegativeInt_eq_ok, text_eq_ok] at h
  obtain ⟨row, -, _, ⟨_, -, named, rfl⟩, _, ⟨_, -, -, rfl⟩, h⟩ := h
  split at h
  · cases h
  · simp only [bind_eq_ok, raiseIf_eq_ok, nonnegativeInt_eq_ok, pure_eq_ok, not_or, not_not] at h
    obtain ⟨_, ⟨some, kind⟩, _, both, _, ⟨_, -, time, rfl⟩, _, quantity, _, price, _, orderPrice,
      fee, raw, currency, paid, rfl⟩ := h
    refine ⟨by simp only; omega, time, (decimalOf_value quantity).1 rfl,
      (decimalOf_value price).2 rfl,
      kind, (decimalOf_value orderPrice).2 rfl, ?_, ?_⟩
    · simp only [optional_isNone raw, optional_isNone paid, both]
    · intro s member
      obtain rfl : currency = .some s := member
      unfold optional at paid
      split at paid
      · cases paid
      · simp only [map_eq_ok, text_eq_ok] at paid
        obtain ⟨_, ⟨_, -, full, rfl⟩, same⟩ := paid
        cases same
        exact full

theorem mapM_toJson {α : Type} {read : Json ℚ → Except CidError α} {write : α → Json ℚ}
    {settle : α → α} {values : List α} (reads : ∀ a ∈ values, read (write a) = .ok (settle a)) :
    (values.map write).mapM read = .ok (values.map settle) := by
  induction values with
  | nil => rfl
  | cons a values ih =>
    simp [reads a (by simp), ih fun b member => reads b (by simp [member])]

theorem mapM_valid {α : Type} {read : Json ℚ → Except CidError α} {P : α → Prop}
    (turn : ∀ value a, read value = .ok a → P a) {values : List (Json ℚ)} {result : List α}
    (h : values.mapM read = .ok result) : ∀ a ∈ result, P a := by
  induction values generalizing result with
  | nil =>
    cases h
    simp
  | cons value values ih =>
    simp only [List.mapM_cons, bind_eq_ok, pure_eq_ok] at h
    obtain ⟨a, first, rest, more, rfl⟩ := h
    rintro b (_ | ⟨_, member⟩)
    · exact turn value _ first
    · exact ih more b member

theorem feeMetadataOf_toJson {metadata : FeeMetadata Decimal} (valid : metadata.Valid) :
    feeMetadataOf metadata.toJson = .ok (metadata.map Decimal.settled) := by
  have fills : (metadata.nativeFills.map NativeFill.toJson).mapM nativeFillOf =
      .ok (metadata.nativeFills.map (·.map Decimal.settled)) :=
    mapM_toJson fun fill member => nativeFillOf_toJson (valid.fills fill member)
  have trades : (metadata.venueTrades.map FeeTrade.toJson).mapM feeTradeOf =
      .ok (metadata.venueTrades.map (·.map Decimal.settled)) :=
    mapM_toJson fun trade member => feeTradeOf_toJson (valid.trades trade member)
  have venue : nonnegativeInt (.int metadata.venueOrderId) "venue_order_id" = .ok _ :=
    nonnegativeInt_eq_ok.2 ⟨_, rfl, valid.venue.le, rfl⟩
  have cid : cidOf (.int metadata.cid) = .ok _ :=
    cidOf_eq_ok.2 ⟨_, rfl, valid.cid_pos, valid.cid_le, rfl⟩
  have instrument : text (.str metadata.instrumentId) "instrument_id" = .ok _ :=
    text_eq_ok.2 ⟨_, rfl, valid.instrument, rfl⟩
  have symbol : text (.str metadata.rawSymbol) "raw_symbol" = .ok _ :=
    text_eq_ok.2 ⟨_, rfl, valid.symbol, rfl⟩
  have fillsOnce : ((metadata.nativeFills.map (·.map Decimal.settled)).map (·.tradeId)).Nodup := by
    simpa [Function.comp_def, NativeFill.map] using valid.fillsOnce
  have tradesOnce : ((metadata.venueTrades.map (·.map Decimal.settled)).map (·.tradeId)).Nodup := by
    simpa [Function.comp_def, FeeTrade.map] using valid.tradesOnce
  rw [List.map_map] at fillsOnce tradesOnce
  simp [feeMetadataOf, FeeMetadata.toJson, fields, hasFields, get, Json.member?, key, array, fills,
    trades, venue, cid, instrument, symbol, fillsOnce, tradesOnce, valid.venue.ne', FeeMetadata.map]

theorem feeMetadataOf_valid {value : Json ℚ} {metadata : FeeMetadata Decimal}
    (h : feeMetadataOf value = .ok metadata) : metadata.Valid := by
  simp only [feeMetadataOf, bind_eq_ok, raiseIf_eq_ok, nonnegativeInt_eq_ok, text_eq_ok,
    cidOf_eq_ok, pure_eq_ok, not_or, not_not] at h
  obtain ⟨row, -, _, -, native, fills, _, -, trades, traded, _, ⟨fillsOnce, tradesOnce⟩, _,
    ⟨_, -, venue, rfl⟩, _, some, _, ⟨_, -, low, high, rfl⟩, _, ⟨_, -, instrument, rfl⟩, _,
    ⟨_, -, symbol, rfl⟩, rfl⟩ := h
  exact ⟨⟨by simp only; omega, instrument, symbol⟩, low, high,
    mapM_valid (fun _ _ => nativeFillOf_valid) fills,
    mapM_valid (fun _ _ => feeTradeOf_valid) traded, fillsOnce, tradesOnce⟩

end Records

namespace CidStore

/-- The two maps hold the same bindings, each under its own names. -/
structure Bound (s : CidStore) : Prop where
  clients : ∀ {client binding}, s.byClient.get? client = some binding →
    binding.clientOrderId = client ∧ s.byCid.get? binding.cid = some binding
  cids : ∀ {cid binding}, s.byCid.get? cid = some binding →
    binding.cid = cid ∧ s.byClient.get? binding.clientOrderId = some binding
  valid : ∀ {cid binding}, s.byCid.get? cid = some binding → binding.Valid

/-- Each metadata belongs to a binding and to an order of its own. -/
structure Scoped (s : CidStore) : Prop where
  named : ∀ {cid metadata}, s.feeMetadata.get? cid = some metadata → metadata.cid = cid
  bound : ∀ {cid metadata}, s.feeMetadata.get? cid = some metadata → s.byCid.get? cid ≠ none
  valid : ∀ {cid metadata}, s.feeMetadata.get? cid = some metadata → metadata.Valid
  apart : ∀ {cid cid' metadata metadata'}, s.feeMetadata.get? cid = some metadata →
    s.feeMetadata.get? cid' = some metadata' → metadata.venueOrderId = metadata'.venueOrderId →
    cid = cid'

structure Valid (s : CidStore) : Prop where
  bindings : s.Bound
  fees : s.Scoped
  last : s.lastCid = maxKey s.byCid.keys

/-- The same bindings, as maps. -/
structure SameBindings (s t : CidStore) : Prop where
  account : s.accountId = t.accountId
  byClient : ∀ client, s.byClient.get? client = t.byClient.get? client
  byCid : ∀ cid, s.byCid.get? cid = t.byCid.get? cid
  lastCid : s.lastCid = t.lastCid

/-- The same fee facts. -/
structure SameFees (s t : CidStore) : Prop where
  metadata : ∀ cid, (s.feeMetadata.get? cid).map FeeMetadata.facts =
    (t.feeMetadata.get? cid).map FeeMetadata.facts
  conflict : s.accountingConflict = t.accountingConflict

def Same (s t : CidStore) : Prop := s.SameBindings t ∧ s.SameFees t

section Keys

theorem foldl_max_spec (keys : List ℤ) (least : ℤ) :
    least ≤ keys.foldl max least ∧ (∀ k ∈ keys, k ≤ keys.foldl max least) ∧
      (keys.foldl max least = least ∨ keys.foldl max least ∈ keys) := by
  induction keys generalizing least with
  | nil => simp
  | cons k keys ih =>
    obtain ⟨low, all, found⟩ := ih (max least k)
    have first : least ≤ max least k := le_max_left _ _
    have second : k ≤ max least k := le_max_right _ _
    simp only [List.foldl_cons, List.mem_cons, forall_eq_or_imp]
    refine ⟨first.trans low, ⟨second.trans low, all⟩, ?_⟩
    rcases found with same | member
    · rw [same]
      rcases max_choice least k with high | high <;> simp [high]
    · exact .inr (.inr member)

theorem le_maxKey {keys : List ℤ} {k : ℤ} (member : k ∈ keys) : k ≤ maxKey keys :=
  (foldl_max_spec keys 0).2.1 k member

theorem maxKey_congr {keys keys' : List ℤ} (same : ∀ k, k ∈ keys ↔ k ∈ keys') :
    maxKey keys = maxKey keys' := by
  have below {a b : List ℤ} (inside : ∀ k ∈ a, k ∈ b) : maxKey a ≤ maxKey b := by
    obtain ⟨low, all, -⟩ := foldl_max_spec b 0
    rcases (foldl_max_spec a 0).2.2 with none | member
    · rw [maxKey, none]
      exact low
    · exact all _ (inside _ member)
  exact le_antisymm (below fun k => (same k).1) (below fun k => (same k).2)

variable {s t : CidStore}

theorem Valid.cid_le_last (valid : s.Valid) {cid : ℤ} {binding : CidBinding}
    (found : s.byCid.get? cid = some binding) : cid ≤ s.lastCid := by
  rw [valid.last]
  exact le_maxKey ((s.byCid.mem_keys_iff cid).2 ⟨binding, found⟩)

theorem Valid.last_nonneg (valid : s.Valid) : 0 ≤ s.lastCid := by
  rw [valid.last]
  exact (foldl_max_spec _ 0).1

theorem Bound.mem_values_iff (bound : s.Bound) {binding : CidBinding} :
    binding ∈ s.byClient.values ↔ s.byCid.get? binding.cid = some binding := by
  rw [Dict.mem_values_iff]
  constructor
  · rintro ⟨client, found⟩
    exact (bound.clients found).2
  · intro found
    exact ⟨_, (bound.cids found).2⟩

end Keys

section Loading

variable {s t : CidStore}

theorem loadBinding_cases {value : Json ℚ} (h : s.loadBinding value = .ok t) :
    ∃ binding, binding.Valid ∧ s.byClient.get? binding.clientOrderId = none ∧
      s.byCid.get? binding.cid = none ∧ t = { s with
        byClient := s.byClient.set binding.clientOrderId binding
        byCid := s.byCid.set binding.cid binding } := by
  simp only [loadBinding, bind_eq_ok, raiseIf_eq_ok, not_or, not_not, pure_eq_ok] at h
  obtain ⟨binding, read, _, ⟨client, cid⟩, rfl⟩ := h
  exact ⟨binding, bindingOf_valid read, client, cid, rfl⟩

/-- A binding under names that are both free joins the bound ones. -/
theorem Bound.add (bound : s.Bound) {binding : CidBinding} (valid : binding.Valid)
    (client : s.byClient.get? binding.clientOrderId = none)
    (cid : s.byCid.get? binding.cid = none)
    (byClient : t.byClient = s.byClient.set binding.clientOrderId binding)
    (byCid : t.byCid = s.byCid.set binding.cid binding) : t.Bound := by
  refine ⟨?_, ?_, ?_⟩
  · intro name other found
    rw [byClient, Dict.get?_set] at found
    rw [byCid]
    split at found
    · rename_i same
      cases found
      exact ⟨same, Dict.get?_set_self _ _ _⟩
    · obtain ⟨named, held⟩ := bound.clients found
      refine ⟨named, ?_⟩
      rw [Dict.get?_set_of_ne _ fun same => ?_]
      · exact held
      · rw [same, held] at cid
        cases cid
  · intro number other found
    rw [byCid, Dict.get?_set] at found
    rw [byClient]
    split at found
    · rename_i same
      cases found
      exact ⟨same, Dict.get?_set_self _ _ _⟩
    · obtain ⟨named, held⟩ := bound.cids found
      refine ⟨named, ?_⟩
      rw [Dict.get?_set_of_ne _ fun same => ?_]
      · exact held
      · rw [same, held] at client
        cases client
  · intro number other found
    rw [byCid, Dict.get?_set] at found
    split at found
    · cases found
      exact valid
    · exact bound.valid found

theorem loadBindings_toJson {rows : List CidBinding} (valid : ∀ row ∈ rows, row.Valid)
    (clients : (rows.map (·.clientOrderId)).Nodup) (cids : (rows.map (·.cid)).Nodup)
    (fresh : ∀ row ∈ rows, s.byClient.get? row.clientOrderId = none ∧ s.byCid.get? row.cid = none) :
    ∃ t, (rows.map CidBinding.toJson).foldlM loadBinding s = .ok t ∧
      (∀ client binding, t.byClient.get? client = some binding ↔
        s.byClient.get? client = some binding ∨ binding ∈ rows ∧ binding.clientOrderId = client) ∧
      (∀ cid binding, t.byCid.get? cid = some binding ↔
        s.byCid.get? cid = some binding ∨ binding ∈ rows ∧ binding.cid = cid) ∧
      t = { s with byClient := t.byClient, byCid := t.byCid } := by
  induction rows generalizing s with
  | nil => exact ⟨s, rfl, by simp, by simp, rfl⟩
  | cons row rows ih =>
    simp only [List.map_cons, List.nodup_cons] at clients cids
    obtain ⟨noClient, noCid⟩ := fresh row (by simp)
    have turn : s.loadBinding row.toJson = .ok { s with
        byClient := s.byClient.set row.clientOrderId row
        byCid := s.byCid.set row.cid row } := by
      simp [loadBinding, bindingOf_toJson (valid row (by simp)), noClient, noCid]
    have later : ∀ other ∈ rows, (s.byClient.set row.clientOrderId row).get? other.clientOrderId =
      none ∧
        (s.byCid.set row.cid row).get? other.cid = none := by
      intro other member
      obtain ⟨client, cid⟩ := fresh other (by simp [member])
      rw [Dict.get?_set_of_ne _ fun same => clients.1 (List.mem_map.2 ⟨other, member, same.symm⟩),
        Dict.get?_set_of_ne _ fun same => cids.1 (List.mem_map.2 ⟨other, member, same.symm⟩)]
      exact ⟨client, cid⟩
    obtain ⟨t, rest, byClient, byCid, same⟩ :=
      @ih { s with
        byClient := s.byClient.set row.clientOrderId row
        byCid := s.byCid.set row.cid row } (fun other member => valid other (by simp [member]))
        clients.2 cids.2 later
    refine ⟨t, ?_, ?_, ?_, same⟩
    · simp only [List.map_cons, List.foldlM_cons, bind_eq_ok]
      exact ⟨_, turn, rest⟩
    · intro client binding
      rw [byClient]
      exact Dict.get?_set_listed noClient rows client binding
    · intro cid binding
      rw [byCid]
      exact Dict.get?_set_listed noCid rows cid binding

theorem loadFeeMetadata_cases {value : Json ℚ} (h : s.loadFeeMetadata value = .ok t) :
    ∃ metadata, metadata.Valid ∧ s.feeMetadata.get? metadata.cid = none ∧
      s.feeScope metadata.scope = .ok metadata.scope ∧
      t = { s with feeMetadata := s.feeMetadata.set metadata.cid metadata } := by
  simp only [loadFeeMetadata, bind_eq_ok, raiseIf_eq_ok, not_not, pure_eq_ok] at h
  obtain ⟨metadata, read, _, fresh, current, scope, rfl⟩ := h
  refine ⟨metadata, feeMetadataOf_valid read, fresh, ?_, rfl⟩
  have same := scope
  simp only [feeScope, bind_eq_ok, pure_eq_ok] at same
  obtain ⟨_, -, _, -, rfl⟩ := same
  have empty : s.feeMetadata.get? metadata.scope.cid = none := fresh
  rw [empty] at scope
  exact scope

theorem feeScope_eq_ok {scope current : FeeMetadata Decimal} (h : s.feeScope scope = .ok current) :
    s.byCid.get? scope.cid ≠ none ∧ scope.nativeFills = [] ∧ scope.venueTrades = [] ∧
      current = (s.feeMetadata.get? scope.cid).getD scope ∧ current.scope = scope ∧
      ∀ {cid metadata}, s.feeMetadata.get? cid = some metadata →
        metadata.venueOrderId = scope.venueOrderId → metadata.cid = scope.cid := by
  simp only [feeScope, bind_eq_ok, raiseIf_eq_ok, not_or, not_not, pure_eq_ok, not_exists,
    not_and] at h
  obtain ⟨_, ⟨bound, fills, trades⟩, _, ⟨same, apart⟩, rfl⟩ := h
  refine ⟨bound, fills, trades, rfl, same, fun {cid metadata} found venue => ?_⟩
  by_contra other
  exact apart metadata ((Dict.mem_values_iff _ _).2 ⟨cid, found⟩) other venue

/-- Metadata under its own cid and order joins the scoped ones. -/
theorem Scoped.set (tidy : s.Scoped) {metadata : FeeMetadata Decimal} (valid : metadata.Valid)
    (bound : s.byCid.get? metadata.cid ≠ none)
    (apart : ∀ {cid other}, s.feeMetadata.get? cid = some other →
      other.venueOrderId = metadata.venueOrderId → other.cid = metadata.cid)
    (byCid : t.byCid = s.byCid)
    (fees : t.feeMetadata = s.feeMetadata.set metadata.cid metadata) : t.Scoped := by
  have cases {cid : ℤ} {other : FeeMetadata Decimal} (found : t.feeMetadata.get? cid = some other) :
      metadata.cid = cid ∧ other = metadata ∨ metadata.cid ≠ cid ∧
        s.feeMetadata.get? cid = some other := by
    rw [fees, Dict.get?_set] at found
    split at found
    · rename_i same
      cases found
      exact .inl ⟨same, rfl⟩
    · rename_i different
      exact .inr ⟨different, found⟩
  refine ⟨?_, ?_, ?_, ?_⟩
  · intro cid other found
    rcases cases found with ⟨same, rfl⟩ | ⟨-, old⟩
    · exact same
    · exact tidy.named old
  · intro cid other found
    rw [byCid]
    rcases cases found with ⟨same, rfl⟩ | ⟨-, old⟩
    · exact same ▸ bound
    · exact tidy.bound old
  · intro cid other found
    rcases cases found with ⟨-, rfl⟩ | ⟨-, old⟩
    · exact valid
    · exact tidy.valid old
  · intro cid cid' other other' found found' venue
    rcases cases found with ⟨same, rfl⟩ | ⟨different, old⟩ <;>
      rcases cases found' with ⟨same', rfl⟩ | ⟨different', old'⟩
    · exact same.symm.trans same'
    · exact absurd ((apart old' venue.symm).symm.trans (tidy.named old')) different'
    · exact absurd ((apart old venue).symm.trans (tidy.named old)) different
    · exact tidy.apart old old' venue

theorem loadFees_toJson {rows : List (FeeMetadata Decimal)} (valid : ∀ row ∈ rows, row.Valid)
    (bound : ∀ row ∈ rows, s.byCid.get? row.cid ≠ none) (cids : (rows.map (·.cid)).Nodup)
    (venues : (rows.map (·.venueOrderId)).Nodup)
    (fresh : ∀ row ∈ rows, s.feeMetadata.get? row.cid = none ∧
      ∀ other ∈ s.feeMetadata.values, other.venueOrderId ≠ row.venueOrderId) :
    ∃ t, (rows.map FeeMetadata.toJson).foldlM loadFeeMetadata s = .ok t ∧
      (∀ cid metadata, t.feeMetadata.get? cid = some metadata ↔
        s.feeMetadata.get? cid = some metadata ∨
          metadata ∈ rows.map (·.map Decimal.settled) ∧ metadata.cid = cid) ∧
      t = { s with feeMetadata := t.feeMetadata } := by
  induction rows generalizing s with
  | nil => exact ⟨s, rfl, by simp, rfl⟩
  | cons row rows ih =>
    simp only [List.map_cons, List.nodup_cons] at cids venues
    obtain ⟨noCid, noVenue⟩ := fresh row (by simp)
    let kept := row.map Decimal.settled
    have noCid' : s.feeMetadata.get? kept.cid = none := noCid
    have scope : s.feeScope kept.scope = .ok kept.scope := by
      have held : s.byCid.get? kept.scope.cid ≠ none := bound row (by simp)
      have empty : s.feeMetadata.get? kept.scope.cid = none := noCid
      have apart : ¬∃ other ∈ s.feeMetadata.values,
          other.cid ≠ kept.scope.cid ∧ other.venueOrderId = kept.scope.venueOrderId :=
        fun ⟨other, member, _, same⟩ => noVenue other member same
      simp only [feeScope, empty, Option.getD_none, bind_eq_ok, raiseIf_eq_ok, pure_eq_ok]
      refine ⟨(), ?_, (), ?_, trivial⟩
      · rintro (none | some | some)
        · exact held none
        · exact some rfl
        · exact some rfl
      · rintro (different | other)
        · exact different rfl
        · exact apart other
    have turn : s.loadFeeMetadata row.toJson =
        .ok { s with feeMetadata := s.feeMetadata.set kept.cid kept } := by
      simp only [loadFeeMetadata, feeMetadataOf_toJson (valid row (by simp)), bind_eq_ok,
        raiseIf_eq_ok, not_not, pure_eq_ok]
      exact ⟨kept, rfl, (), noCid', kept.scope, scope, rfl⟩
    have later : ∀ next ∈ rows, (s.feeMetadata.set kept.cid kept).get? next.cid = none ∧
        ∀ other ∈ (s.feeMetadata.set kept.cid kept).values,
          other.venueOrderId ≠ next.venueOrderId := by
      intro next member
      obtain ⟨cid, venue⟩ := fresh next (by simp [member])
      have different : kept.cid ≠ next.cid :=
        fun same => cids.1 (List.mem_map.2 ⟨next, member, same.symm⟩)
      constructor
      · rw [Dict.get?_set_of_ne _ different]
        exact cid
      · intro other held
        obtain ⟨cid, found⟩ := (Dict.mem_values_iff _ _).1 held
        rw [Dict.get?_set] at found
        split at found
        · cases found
          exact fun same => venues.1 (List.mem_map.2 ⟨next, member, same.symm⟩)
        · exact venue other ((Dict.mem_values_iff _ _).2 ⟨cid, found⟩)
    obtain ⟨t, rest, fees, same⟩ := @ih { s with feeMetadata := s.feeMetadata.set kept.cid kept }
      (fun other member => valid other (by simp [member]))
      (fun other member => bound other (by simp [member])) cids.2 venues.2 later
    refine ⟨t, ?_, ?_, same⟩
    · simp only [List.map_cons, List.foldlM_cons, bind_eq_ok]
      exact ⟨_, turn, rest⟩
    · intro cid metadata
      rw [fees, List.map_cons]
      exact Dict.get?_set_listed noCid' _ cid metadata

/-- What a store is before it reads the rows of its file. -/
structure Fresh (accountId : PyStr) (s : CidStore) : Prop where
  account : s.accountId = accountId
  bindings : s.Bound
  fees : s.feeMetadata = .empty
  durable : s.feesDurable = true

theorem loadFees_valid {raw : List (PyStr × Json ℚ)} {accountId : PyStr} (valid : s.Valid)
    (account : s.accountId = accountId) (durable : s.feesDurable = true)
    (h : s.loadFees raw = .ok t) :
    t.Valid ∧ t.accountId = accountId ∧ t.feesDurable = true := by
  unfold loadFees at h
  split at h
  · cases h
  · split at h
    · refine foldlM_invariant
        (P := fun t : CidStore => t.Valid ∧ t.accountId = accountId ∧ t.feesDurable = true) ?_ ?_ h
      · rintro u value v ⟨kept, account, durable⟩ turn
        obtain ⟨metadata, fine, -, scope, rfl⟩ := loadFeeMetadata_cases turn
        obtain ⟨bound, -, -, -, -, apart⟩ := feeScope_eq_ok scope
        exact ⟨⟨⟨kept.bindings.clients, kept.bindings.cids, kept.bindings.valid⟩,
          kept.fees.set fine bound apart rfl rfl, kept.last⟩, account, durable⟩
      · exact ⟨⟨⟨valid.bindings.clients, valid.bindings.cids, valid.bindings.valid⟩,
          ⟨valid.fees.named, valid.fees.bound, valid.fees.valid, valid.fees.apart⟩, valid.last⟩,
          account, durable⟩
    · cases h

theorem load_valid {accountId : PyStr} {file : File} (h : load accountId file = .ok s) :
    s.Valid ∧ s.accountId = accountId ∧ s.feesDurable = true := by
  have empty : Bound { accountId } := ⟨nofun, nofun, nofun⟩
  have unscoped {s : CidStore} (fees : s.feeMetadata = .empty) : s.Scoped := by
    constructor <;> intro cid <;> rw [fees] <;> intros <;> simp_all
  unfold load at h
  split at h
  · cases h
    exact ⟨⟨empty, unscoped rfl, rfl⟩, rfl, rfl⟩
  · cases h
  · split at h
    · cases h
    · simp only [bind_eq_ok, nonnegativeInt_eq_ok] at h
      obtain ⟨_, -, _, ⟨lastCid, -, -, rfl⟩, h⟩ := h
      split at h
      · simp only [bind_eq_ok, raiseIf_eq_ok, not_not] at h
        obtain ⟨u, rows, _, last, h⟩ := h
        have fresh : Fresh accountId u := by
          refine foldlM_invariant (fun v value w fresh turn => ?_) ⟨rfl, empty, rfl, rfl⟩ rows
          obtain ⟨binding, fine, client, cid, rfl⟩ := loadBinding_cases turn
          exact ⟨fresh.account, fresh.bindings.add fine client cid rfl rfl, fresh.fees,
            fresh.durable⟩
        have valid : Valid { u with lastCid } :=
          ⟨⟨fresh.bindings.clients, fresh.bindings.cids, fresh.bindings.valid⟩, unscoped fresh.fees,
            last⟩
        split at h
        · exact loadFees_valid valid fresh.account fresh.durable h
        · simp only [pure_eq_ok] at h
          subst h
          exact ⟨valid, fresh.account, fresh.durable⟩
      · cases h
  · cases h

theorem nodup_of_keys {α κ : Type} [DecidableEq κ] {d : Dict κ α} {f : α → κ}
    (named : ∀ {k v}, d.get? k = some v → f v = k) : (d.values.map f).Nodup := by
  have keys : d.values.map f = d.keys := by
    simp only [Dict.values, Dict.keys, List.map_map]
    refine List.map_congr_left fun entry member => ?_
    exact named ((Dict.mem_entries_iff _ _ _).1 member)
  rw [keys]
  exact d.nodup

theorem Scoped.venues (tidy : s.Scoped) : (s.feeMetadata.values.map (·.venueOrderId)).Nodup := by
  have cids := nodup_of_keys tidy.named
  rw [List.nodup_iff_pairwise_ne, List.pairwise_map] at cids ⊢
  refine cids.imp_of_mem fun {a b} first second different venue => different ?_
  obtain ⟨cid, found⟩ := (Dict.mem_values_iff _ _).1 first
  obtain ⟨cid', found'⟩ := (Dict.mem_values_iff _ _).1 second
  rw [tidy.named found, tidy.named found']
  exact tidy.apart found found' venue

theorem facts_settled (metadata : FeeMetadata Decimal) :
    (metadata.map Decimal.settled).facts = metadata.facts := by
  have fill (f : NativeFill Decimal) : (f.map Decimal.settled).map Decimal.value =
      f.map Decimal.value := by
    simp [NativeFill.map, Decimal.value_settled]
  have trade (f : FeeTrade Decimal) : (f.map Decimal.settled).map Decimal.value =
      f.map Decimal.value := by
    simp [FeeTrade.map, Decimal.value_settled, Function.comp_def]
  simp [FeeMetadata.facts, FeeMetadata.map, Function.comp_def, fill, trade]

/-- What a valid store writes reads back as the same store. -/
theorem load_payload (valid : s.Valid) :
    ∃ t, load s.accountId (.holds (s.payload s.lastCid s.bindings)) = .ok t ∧ t.Same s := by
  have rows := List.perm_insertionSort (·.cid ≤ ·.cid) s.bindings
  have metadata := List.perm_insertionSort (·.cid ≤ ·.cid) s.feeMetadata.values
  generalize sorted : s.bindings.insertionSort (·.cid ≤ ·.cid) = bindings at rows
  generalize sorted' : s.feeMetadata.values.insertionSort (·.cid ≤ ·.cid) = fees at metadata
  have listed (binding : CidBinding) : binding ∈ bindings ↔ s.byCid.get? binding.cid =
      some binding :=
    rows.mem_iff.trans valid.bindings.mem_values_iff
  have priced (row : FeeMetadata Decimal) : row ∈ fees ↔ s.feeMetadata.get? row.cid = some row := by
    rw [metadata.mem_iff, Dict.mem_values_iff]
    exact ⟨fun ⟨cid, found⟩ => valid.fees.named found ▸ found, fun found => ⟨_, found⟩⟩
  have byCids : (bindings.map (·.cid)).Nodup := by
    rw [(rows.map _).nodup_iff]
    have apart : (s.byClient.values.map (·.clientOrderId)).Nodup :=
      nodup_of_keys fun found => (valid.bindings.clients found).1
    rw [List.nodup_iff_pairwise_ne, List.pairwise_map] at apart ⊢
    refine apart.imp_of_mem fun {a b} first second different same => different ?_
    have found := valid.bindings.mem_values_iff.1 first
    have found' := valid.bindings.mem_values_iff.1 second
    rw [same, found'] at found
    cases found
    rfl
  have byClients : (bindings.map (·.clientOrderId)).Nodup := by
    rw [(rows.map _).nodup_iff]
    exact nodup_of_keys fun found => (valid.bindings.clients found).1
  obtain ⟨t, read, clients, cids, same⟩ :=
    @loadBindings_toJson { accountId := s.accountId } bindings
    (fun row member => valid.bindings.valid ((listed row).1 member)) byClients byCids
    (fun _ _ => ⟨rfl, rfl⟩)
  have sameClient (client : PyStr) : t.byClient.get? client = s.byClient.get? client := by
    refine Option.ext fun binding => ?_
    rw [clients]
    simp only [Dict.get?_empty, reduceCtorEq, false_or, listed]
    exact ⟨fun ⟨found, named⟩ => named ▸ (valid.bindings.cids found).2, fun found =>
      ⟨(valid.bindings.clients found).2, (valid.bindings.clients found).1⟩⟩
  have sameCid (cid : ℤ) : t.byCid.get? cid = s.byCid.get? cid := by
    refine Option.ext fun binding => ?_
    rw [cids]
    simp only [Dict.get?_empty, reduceCtorEq, false_or, listed]
    exact ⟨fun ⟨found, named⟩ => named ▸ found, fun found =>
      have named := (valid.bindings.cids found).1
      ⟨by rw [named]; exact found, named⟩⟩
  have last : s.lastCid = maxKey t.byCid.keys := by
    rw [valid.last]
    refine maxKey_congr fun k => ?_
    rw [Dict.mem_keys_iff, Dict.mem_keys_iff, sameCid]
  obtain ⟨u, read', found, same'⟩ := @loadFees_toJson
    { t with lastCid := s.lastCid, accountingConflict := s.accountingConflict } fees
    (fun row member => valid.fees.valid ((priced row).1 member))
    (fun row member => by
      simp only [sameCid]
      exact valid.fees.bound ((priced row).1 member))
    (by
      rw [(metadata.map _).nodup_iff]
      exact nodup_of_keys valid.fees.named)
    (by
      rw [(metadata.map _).nodup_iff]
      exact valid.fees.venues)
    (by
      rw [same]
      exact fun _ _ => ⟨rfl, nofun⟩)
  have number : nonnegativeInt (.int s.lastCid) "last_cid" = .ok s.lastCid :=
    nonnegativeInt_eq_ok.2 ⟨_, rfl, valid.last_nonneg, rfl⟩
  refine ⟨u, ?_, ⟨?_, ?_, ?_, ?_⟩, ?_, ?_⟩
  · rw [payload, sorted, sorted']
    simp only [load, schemaOf, get, Json.member?, key, isStr, loadFees, boolOf]
    simp [read, last]
    rw [← last]
    exact ⟨number, read'⟩
  · rw [same', same]
  · intro client
    rw [same']
    exact sameClient client
  · intro cid
    rw [same']
    exact sameCid cid
  · rw [same']
  · intro cid
    have held (row : FeeMetadata Decimal) : u.feeMetadata.get? cid = some row ↔
        row ∈ fees.map (·.map Decimal.settled) ∧ row.cid = cid := by
      rw [found, same]
      simp
    cases known : s.feeMetadata.get? cid with
    | none =>
      have absent : u.feeMetadata.get? cid = none := by
        rw [Option.eq_none_iff_forall_ne_some]
        intro row there
        obtain ⟨member, named⟩ := (held row).1 there
        obtain ⟨original, inside, rfl⟩ := List.mem_map.1 member
        have present := (priced original).1 inside
        rw [show original.cid = cid from named, known] at present
        cases present
      rw [absent]
    | some row =>
      have named := valid.fees.named known
      have member : row ∈ fees := (priced row).2 (by rw [named]; exact known)
      have there := (held (row.map Decimal.settled)).2 ⟨List.mem_map_of_mem member, named⟩
      rw [there, Option.map_some, Option.map_some, facts_settled]
  · rw [same']

end Loading

theorem Same.refl (s : CidStore) :
    s.Same s := ⟨⟨rfl, fun _ => rfl, fun _ => rfl, rfl⟩, fun _ => rfl, rfl⟩

theorem SameBindings.symm {s t : CidStore} (h : s.SameBindings t) : t.SameBindings s :=
  ⟨h.account.symm, fun client => (h.byClient client).symm, fun cid => (h.byCid cid).symm,
    h.lastCid.symm⟩

theorem SameBindings.trans {s t u : CidStore} (h : s.SameBindings t) (h' : t.SameBindings u) :
    s.SameBindings u :=
  ⟨h.account.trans h'.account, fun client => (h.byClient client).trans (h'.byClient client),
    fun cid => (h.byCid cid).trans (h'.byCid cid), h.lastCid.trans h'.lastCid⟩

/-- The file of a store that holds what is in memory. -/
def written (s : CidStore) : File := .holds (s.payload s.lastCid s.bindings)

end CidStore

end ArbNautilus.Bitfinex.Cids
