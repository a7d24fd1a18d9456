import ArbNautilus.Bitfinex.FeeCoverage

namespace ArbNautilus.Bitfinex.FeeCoverage

open Base Cids

section Source

/-- The costs of one currency: of the final fees, exact and as booked, and of the native fills. -/
structure Amounts where
  raw : ℚ := 0
  quantized : ℚ := 0
  native : ℚ := 0

/-- Observed subtotals. -/
structure FeeCurrencySummary where
  rawCost : ℚ
  quantizedCost : ℚ
  nativeObservedCost : ℚ
  nativeCoverageComplete : Bool
  finalFeesComplete : Bool

namespace FeeCurrencySummary

def nativeCost (s : FeeCurrencySummary) : Option ℚ :=
  if s.nativeCoverageComplete then some s.nativeObservedCost else none

def provisionalCorrection (s : FeeCurrencySummary) : Except DecimalError (Option ℚ) :=
  match s.nativeCost with
  | none => pure none
  | some booked =>
    if s.finalFeesComplete then do
      let correction ← feeContext.sub s.quantizedCost booked
      pure (some correction)
    else pure none

end FeeCurrencySummary

structure FeeSummary where
  currencies : Dict PyStr FeeCurrencySummary
  pendingTrades : ℕ
  unknownOrders : ℕ
  durable : Bool

def FeeSummary.complete (s : FeeSummary) : Bool :=
  s.pendingTrades = 0 ∧ s.unknownOrders = 0 ∧ s.durable

/-- What `summarize_fees` has counted so far. -/
structure Tally where
  totals : Dict PyStr Amounts := .empty
  pending : ℕ := 0
  unknown : ℕ

namespace Tally

/-- `totals.setdefault(currency, [Decimal(0)] * 3)`. -/
def amounts (t : Tally) (currency : PyStr) : Amounts := (t.totals.get? currency).getD {}

variable (fromDecimal : ℚ → Option ℚ)

def addNative (t : Tally) (native : NativeFill ℚ) : Except FeeError Tally := do
  let amounts := t.amounts native.commissionCurrency
  let booked ← arithmetic (feeContext.add amounts.native native.commission)
  pure { t with totals := t.totals.set native.commissionCurrency { amounts with native := booked } }

def addTrade (t : Tally) (trade : FeeTrade ℚ) : Except FeeError Tally :=
  match trade.rawFee with
  | none => pure { t with pending := t.pending + 1 }
  | some fee => do
    raiseIf (trade.feeCurrency ≠ some usd) (.reportError "Bitfinex final fee currency must be USD")
    let amounts := t.amounts usd
    let raw ← arithmetic (feeContext.sub amounts.raw fee)
    let cost ← usdCommission fromDecimal fee
    let quantized ← arithmetic (feeContext.add amounts.quantized cost)
    pure { t with totals := t.totals.set usd { amounts with raw, quantized } }

def addOrder (t : Tally) (order : FeeMetadata ℚ) : Except FeeError Tally := do
  let covered ← feeCoverageMatches fromDecimal order
  let t := if covered then t else { t with unknown := t.unknown + 1 }
  let t ← order.nativeFills.foldlM addNative t
  order.venueTrades.foldlM (addTrade fromDecimal) t

def summary (t : Tally) (durable : Bool) : FeeSummary where
  currencies := .ofList (t.totals.entries.map fun e => (e.1, {
    rawCost := e.2.raw
    quantizedCost := e.2.quantized
    nativeObservedCost := e.2.native
    nativeCoverageComplete := t.unknown = 0
    finalFeesComplete := t.pending = 0 }))
  pendingTrades := t.pending
  unknownOrders := t.unknown
  durable := durable

end Tally

def summarizeFees (fromDecimal : ℚ → Option ℚ) (metadata : List (FeeMetadata ℚ))
    (unknownOrders : ℕ) (durable : Bool) : Except FeeError FeeSummary := do
  let t ← metadata.foldlM (Tally.addOrder fromDecimal) { unknown := unknownOrders }
  pure (t.summary durable)

end Source

section Totals

variable {fromDecimal : ℚ → Option ℚ} {currency : PyStr} {done : List (FeeMetadata ℚ)}
  {natives : List (NativeFill ℚ)} {trades : List (FeeTrade ℚ)} {t t' : Tally}

/-- The commissions booked in a currency. -/
def commissionsOf (currency : PyStr) (natives : List (NativeFill ℚ)) : List ℚ :=
  (natives.filter (·.commissionCurrency = currency)).map (·.commission)

/-- The quantized cost of a final fee. -/
def quantizedCost (fromDecimal : ℚ → Option ℚ) (currency : PyStr) (trade : FeeTrade ℚ) : Option ℚ :=
  if trade.feeCurrency = some currency then
    trade.rawFee.bind fun fee => (usdCommission fromDecimal fee).toOption
  else none

def quantizedCosts (fromDecimal : ℚ → Option ℚ) (currency : PyStr)
    (trades : List (FeeTrade ℚ)) : List ℚ := trades.filterMap (quantizedCost fromDecimal currency)

/-- The tally of these orders, fills and trades. -/
structure Tallied (fromDecimal : ℚ → Option ℚ) (done : List (FeeMetadata ℚ))
    (natives : List (NativeFill ℚ)) (trades : List (FeeTrade ℚ)) (t : Tally) : Prop where
  native : ∀ currency, feeContext.sum (commissionsOf currency natives) =
    .ok (t.amounts currency).native
  quantized : ∀ currency, feeContext.sum (quantizedCosts fromDecimal currency trades) =
    .ok (t.amounts currency).quantized
  final : t.pending = 0 → ∀ trade ∈ trades, trade.rawFee ≠ none
  covered : t.unknown = 0 → ∀ order ∈ done, feeCoverageMatches fromDecimal order = .ok true

theorem sum_concat {values : List ℚ} {total next x : ℚ} (sum : feeContext.sum values = .ok total)
    (add : feeContext.add total x = .ok next) : feeContext.sum (values ++ [x]) = .ok next := by
  rw [Context.sum, List.foldlM_append, ← Context.sum, sum]
  exact (bind_pure _).trans add

theorem arithmetic_eq_ok {α : Type} {x : Except DecimalError α} {a : α} :
    arithmetic x = .ok a ↔ x = .ok a := by
  cases x with
  | error e => exact ⟨nofun, nofun⟩
  | ok b => simp [arithmetic]

theorem addNative_tallied {native : NativeFill ℚ}
    (tallied : Tallied fromDecimal done natives trades t)
    (added : t.addNative native = .ok t') :
    Tallied fromDecimal done (natives ++ [native]) trades t' := by
  simp only [Tally.addNative, bind_eq_ok, pure_eq_ok, arithmetic_eq_ok] at added
  obtain ⟨booked, sum, rfl⟩ := added
  refine ⟨fun currency => ?_, fun currency => ?_, tallied.final, tallied.covered⟩
  · by_cases mine : native.commissionCurrency = currency
    · subst mine
      have more : commissionsOf native.commissionCurrency (natives ++ [native]) =
          commissionsOf native.commissionCurrency natives ++ [native.commission] := by
        simp [commissionsOf]
      rw [more, Tally.amounts, Dict.get?_set_self, Option.getD_some]
      exact sum_concat (tallied.native _) sum
    · have same : commissionsOf currency (natives ++ [native]) =
          commissionsOf currency natives := by
        simp [commissionsOf, mine]
      rw [same, Tally.amounts, Dict.get?_set_of_ne _ mine]
      exact tallied.native currency
  · rw [tallied.quantized currency, Tally.amounts, Tally.amounts, Dict.get?_set]
    split
    · rename_i mine
      rw [← mine]
      rfl
    · rfl

theorem addTrade_tallied {trade : FeeTrade ℚ} (tallied : Tallied fromDecimal done natives trades t)
    (added : t.addTrade fromDecimal trade = .ok t') :
    Tallied fromDecimal done natives (trades ++ [trade]) t' := by
  unfold Tally.addTrade at added
  cases fee : trade.rawFee with
  | none =>
    rw [fee] at added
    obtain rfl := pure_eq_ok.1 added
    have nothing : ∀ currency, quantizedCosts fromDecimal currency (trades ++ [trade]) =
        quantizedCosts fromDecimal currency trades := by
      intro currency
      simp [quantizedCosts, quantizedCost, fee]
    refine ⟨tallied.native, fun currency => ?_, nofun, tallied.covered⟩
    rw [nothing]
    exact tallied.quantized currency
  | some amount =>
    rw [fee] at added
    simp only [bind_eq_ok, raiseIf_eq_ok, not_not, pure_eq_ok, arithmetic_eq_ok] at added
    obtain ⟨_, dollars, raw, -, cost, converted, quantized, sum, rfl⟩ := added
    refine ⟨fun currency => ?_, fun currency => ?_, fun none trade' member => ?_, tallied.covered⟩
    · rw [tallied.native currency, Tally.amounts, Tally.amounts, Dict.get?_set]
      split
      · rename_i mine
        rw [← mine]
        rfl
      · rfl
    · by_cases mine : usd = currency
      · subst mine
        have more : quantizedCosts fromDecimal usd (trades ++ [trade]) =
            quantizedCosts fromDecimal usd trades ++ [cost] := by
          simp [quantizedCosts, quantizedCost, fee, dollars, converted, Except.toOption]
        rw [more, Tally.amounts, Dict.get?_set_self, Option.getD_some]
        exact sum_concat (tallied.quantized _) sum
      · have same : quantizedCosts fromDecimal currency (trades ++ [trade]) =
            quantizedCosts fromDecimal currency trades := by
          simp [quantizedCosts, quantizedCost, dollars, mine]
        rw [same, Tally.amounts, Dict.get?_set_of_ne _ mine]
        exact tallied.quantized currency
    · obtain old | new := List.mem_append.1 member
      · exact tallied.final none trade' old
      · rw [List.mem_singleton.1 new, fee]
        exact Option.some_ne_none amount

theorem addNatives_tallied {more : List (NativeFill ℚ)} : ∀ {natives : List (NativeFill ℚ)}
    {t : Tally}, Tallied fromDecimal done natives trades t →
    more.foldlM Tally.addNative t = .ok t' →
    Tallied fromDecimal done (natives ++ more) trades t' := by
  induction more with
  | nil =>
    intro natives t tallied added
    obtain rfl := pure_eq_ok.1 added
    rwa [List.append_nil]
  | cons native rest ih =>
    intro natives t tallied added
    rw [List.foldlM_cons, bind_eq_ok] at added
    obtain ⟨next, first, later⟩ := added
    rw [List.append_cons]
    exact ih (addNative_tallied tallied first) later

theorem addTrades_tallied {more : List (FeeTrade ℚ)} : ∀ {trades : List (FeeTrade ℚ)}
    {t : Tally}, Tallied fromDecimal done natives trades t →
    more.foldlM (Tally.addTrade fromDecimal) t = .ok t' →
    Tallied fromDecimal done natives (trades ++ more) t' := by
  induction more with
  | nil =>
    intro trades t tallied added
    obtain rfl := pure_eq_ok.1 added
    rwa [List.append_nil]
  | cons trade rest ih =>
    intro trades t tallied added
    rw [List.foldlM_cons, bind_eq_ok] at added
    obtain ⟨next, first, later⟩ := added
    rw [List.append_cons]
    exact ih (addTrade_tallied tallied first) later

theorem addOrder_tallied {order : FeeMetadata ℚ}
    (tallied : Tallied fromDecimal done natives trades t)
    (added : t.addOrder fromDecimal order = .ok t') :
    Tallied fromDecimal (done ++ [order]) (natives ++ order.nativeFills)
      (trades ++ order.venueTrades) t' := by
  simp only [Tally.addOrder, bind_eq_ok] at added
  obtain ⟨covered, verdict, middle, fills, rest⟩ := added
  refine addTrades_tallied (addNatives_tallied ?_ fills) rest
  cases covered with
  | false => exact ⟨tallied.native, tallied.quantized, tallied.final, by rintro ⟨⟩⟩
  | true =>
    refine ⟨tallied.native, tallied.quantized, tallied.final, fun none other member => ?_⟩
    obtain old | new := List.mem_append.1 member
    · exact tallied.covered none other old
    · rw [List.mem_singleton.1 new]
      exact verdict

theorem orders_tallied {metadata : List (FeeMetadata ℚ)} : ∀ {done : List (FeeMetadata ℚ)}
    {t : Tally}, Tallied fromDecimal done (done.flatMap (·.nativeFills))
      (done.flatMap (·.venueTrades)) t →
    metadata.foldlM (Tally.addOrder fromDecimal) t = .ok t' →
    Tallied fromDecimal (done ++ metadata) ((done ++ metadata).flatMap (·.nativeFills))
      ((done ++ metadata).flatMap (·.venueTrades)) t' := by
  induction metadata with
  | nil =>
    intro done t tallied added
    obtain rfl := pure_eq_ok.1 added
    rwa [List.append_nil]
  | cons order rest ih =>
    intro done t tallied added
    rw [List.foldlM_cons, bind_eq_ok] at added
    obtain ⟨next, first, later⟩ := added
    rw [List.append_cons]
    refine ih ?_ later
    rw [List.flatMap_append, List.flatMap_append, List.flatMap_singleton, List.flatMap_singleton]
    exact addOrder_tallied tallied first

theorem start_tallied (unknownOrders : ℕ) :
    Tallied fromDecimal [] [] [] { unknown := unknownOrders } :=
  ⟨fun _ => rfl, fun _ => rfl, fun _ _ member => absurd member List.not_mem_nil,
    fun _ _ member => absurd member List.not_mem_nil⟩

end Totals

section Main

variable {fromDecimal : ℚ → Option ℚ}

/-- The order with its rows in another order. -/
structure Reordered (order order' : FeeMetadata ℚ) : Prop where
  scope : order'.rawSymbol = order.rawSymbol
  fills : order.nativeFills.Perm order'.nativeFills
  trades : order.venueTrades.Perm order'.venueTrades

theorem coverage_reordered {order order' : FeeMetadata ℚ}
    (unique : (order.venueTrades.map (·.tradeId)).Nodup) (reordered : Reordered order order')
    (exact' : inferredFills order.nativeFills ≠ [] → ExactOrder order) :
    feeCoverageMatches fromDecimal order = .ok true ↔
      feeCoverageMatches fromDecimal order' = .ok true := by
  have unique' := (reordered.trades.map (·.tradeId)).nodup_iff.1 unique
  rw [feeCoverageMatches_iff unique, feeCoverageMatches_iff unique']
  constructor
  · exact Covered.perm reordered.fills reordered.trades reordered.scope exact'
  · refine Covered.perm reordered.fills.symm reordered.trades.symm reordered.scope.symm fun some' =>
      ?_
    refine (exact' fun none => some' ?_).perm reordered.fills reordered.trades
    have others := inferredFills_perm reordered.fills
    rw [none] at others
    exact others.symm.eq_nil

/-- What the summary of fees vouches for. -/
structure FeesSound (fromDecimal : ℚ → Option ℚ) (metadata : List (FeeMetadata ℚ)) : Prop where
  sound : ∀ order ∈ metadata, feeCoverageMatches fromDecimal order = .ok true → Sound order
  reordered : ∀ order ∈ metadata, ∀ order', Reordered order order' →
    (inferredFills order.nativeFills ≠ [] → ExactOrder order) →
    (feeCoverageMatches fromDecimal order = .ok true ↔
      feeCoverageMatches fromDecimal order' = .ok true) ∧
    ((∀ trade ∈ order.venueTrades, ∀ fee, trade.rawFee = some fee →
        ∃ cost, usdCommission fromDecimal fee = .ok cost) →
      feeCoverageMatches fromDecimal order = feeCoverageMatches fromDecimal order')
  complete : ∀ unknownOrders durable summary,
    summarizeFees fromDecimal metadata unknownOrders durable = .ok summary →
    summary.complete = true →
    (∀ order ∈ metadata, feeCoverageMatches fromDecimal order = .ok true) ∧
    ∀ currency s, summary.currencies.get? currency = some s →
      let booked := commissionsOf currency (metadata.flatMap (·.nativeFills))
      let quantized := quantizedCosts fromDecimal currency (metadata.flatMap (·.venueTrades))
      feeContext.Exact (quantized ++ booked) →
        s.provisionalCorrection = .ok (some (quantized.sum - booked.sum))

/-- What counts as covered is covered by its trades, in whatever order exact amounts are added, and
a complete summary corrects each currency by its trades' costs less what was booked. -/
theorem fees_sound (metadata : List (FeeMetadata ℚ))
    (unique : ∀ order ∈ metadata, (order.venueTrades.map (·.tradeId)).Nodup) :
    FeesSound fromDecimal metadata where
  sound order member covers :=
    ((feeCoverageMatches_iff (unique order member)).1 covers).sound (unique order member)
  reordered order member order' reordered exact' := by
    have same : feeCoverageMatches fromDecimal order = .ok true ↔
        feeCoverageMatches fromDecimal order' = .ok true :=
      coverage_reordered (unique order member) reordered exact'
    refine ⟨same, fun converts => ?_⟩
    obtain ⟨covers, result⟩ := feeCoverageMatches_returns (unique order member) exact' converts
    have unique' := (reordered.trades.map (·.tradeId)).nodup_iff.1 (unique order member)
    have exact'' : inferredFills order'.nativeFills ≠ [] → ExactOrder order' := by
      intro some'
      refine (exact' fun none => some' ?_).perm reordered.fills reordered.trades
      have others := inferredFills_perm reordered.fills
      rw [none] at others
      exact others.symm.eq_nil
    obtain ⟨covers', result'⟩ := feeCoverageMatches_returns unique' exact''
      fun trade listed => converts trade (reordered.trades.mem_iff.2 listed)
    rw [result, result'] at same ⊢
    cases covers <;> cases covers'
    · rfl
    · exact absurd (same.2 rfl) (by simp)
    · exact absurd (same.1 rfl) (by simp)
    · rfl
  complete unknownOrders durable summary summarized complete := by
    simp only [summarizeFees, bind_eq_ok, pure_eq_ok] at summarized
    obtain ⟨t, counted, rfl⟩ := summarized
    obtain ⟨pending, unknown⟩ : t.pending = 0 ∧ t.unknown = 0 :=
      ⟨(of_decide_eq_true complete).1, (of_decide_eq_true complete).2.1⟩
    have tallied : Tallied fromDecimal metadata _ _ t :=
      orders_tallied (start_tallied unknownOrders) counted
    refine ⟨tallied.covered unknown, fun currency s held => ?_⟩
    intro booked quantized exact'
    obtain ⟨amounts, total, rfl⟩ : ∃ amounts, t.totals.get? currency = some amounts ∧
        FeeCurrencySummary.mk amounts.raw amounts.quantized amounts.native (t.unknown = 0)
          (t.pending = 0) = s := by
      obtain ⟨e, listed, same⟩ := List.mem_map.1 (Dict.mem_of_get?_ofList held)
      cases same
      exact ⟨e.2, (Dict.mem_entries_iff _ _ _).1 listed, rfl⟩
    have mine : t.amounts currency = amounts := by
      rw [Tally.amounts, total, Option.getD_some]
    obtain ⟨first, second, difference⟩ := exact'.sub
    have native : booked.sum = amounts.native := by
      rw [← mine]
      exact Except.ok.inj (second.symm.trans (tallied.native currency))
    have costs : quantized.sum = amounts.quantized := by
      rw [← mine]
      exact Except.ok.inj (first.symm.trans (tallied.quantized currency))
    rw [native, costs] at difference
    simp only [FeeCurrencySummary.provisionalCorrection, FeeCurrencySummary.nativeCost, unknown,
      pending, decide_true, if_true, difference, native, costs]
    rfl

end Main

section Demo

/-- The booked amount in cents, half to even, of what the library can hold. -/
def usdMoney (amount : ℚ) : Option ℚ :=
  if |amount| ≤ 9223372036 then some (nearestEven (amount * 100) / 100) else none

def fillOf (tradeId : String) (origin : String) (quantity commission : ℚ) : NativeFill ℚ where
  tradeId := key tradeId
  nativeFillOrigin := key origin
  signedQuantity := quantity
  price := 1
  tsEventNs := 1000000
  liquiditySide := key "MAKER"
  commission := commission
  commissionCurrency := usd

def tradeOf (tradeId : ℤ) (quantity : ℚ) (fee : Option ℚ) : FeeTrade ℚ where
  tradeId := tradeId
  tsEventMs := 1
  executionQty := quantity
  executionPrice := 1
  orderType := key "LIMIT"
  orderPrice := 1
  maker := true
  rawFee := fee
  feeCurrency := fee.map fun _ => usd

def orderOf (fills : List (NativeFill ℚ)) (trades : List (FeeTrade ℚ)) : FeeMetadata ℚ where
  cid := 1
  venueOrderId := 2
  instrumentId := key "XAUT/USD.BITFINEX"
  rawSymbol := key "tXAUT:USD"
  nativeFills := fills
  venueTrades := trades

/-- The digit that the arithmetic keeps last decides what becomes of a number. -/
theorem finish_near {x : ℚ} {e m k : ℤ} (low : 10 ^ e ≤ |x|) (high : |x| < 10 ^ (e + 1))
    (last : k = e - 27) (early : -1000026 ≤ k) (near : |x / 10 ^ k - m| < 1 / 2)
    (small : |(m : ℚ) * 10 ^ k| < 10 ^ (100 : ℤ)) : feeContext.finish x = .ok (m * 10 ^ k) := by
  have positive : 0 < |x| := lt_of_lt_of_le (by positivity) low
  have log : Int.log 10 |x| = e := by
    have below : Int.log 10 |x| < e + 1 := (Int.lt_zpow_iff_log_lt (by norm_num) positive).1
      (by exact_mod_cast high)
    have above : e ≤ Int.log 10 |x| := (Int.zpow_le_iff_le_log (by norm_num) positive).1
      (by exact_mod_cast low)
    omega
  have level : feeContext.quantum x = k := by
    simp only [Context.quantum, Context.etiny, feeContext, log]
    omega
  have limit : (10 : ℚ) ^ (100 : ℤ) ≤ 10 ^ (feeContext.emax + 1) :=
    zpow_le_zpow_right₀ (by norm_num) (by decide)
  rw [Context.finish, Context.nearest_eq level near, raiseIf,
    if_neg (not_le.2 (small.trans_le limit))]
  rfl

/-- An inferred fill of more digits than the arithmetic keeps. -/
def roundedOrder : FeeMetadata ℚ :=
  orderOf [fillOf "T-1" "inferred" (1 + 1 / 10 ^ 28) 0] [tradeOf 7 1 none]

/-- Of inferred fills alone only the aggregate decides. -/
theorem inferred_covers {fromDecimal : ℚ → Option ℚ} {fills : List (NativeFill ℚ)}
    {trades : List (FeeTrade ℚ)} (inferred : ∀ fill ∈ fills, fill.nativeFillOrigin = key "inferred")
    (some' : fills ≠ []) (rows : trades ≠ []) (sides : oneSide (orderOf fills trades) = true)
    (unique : (trades.map (·.tradeId)).Nodup) :
    feeCoverageMatches fromDecimal (orderOf fills trades) = .ok true ↔
      aggregateCovers fills trades = .ok true := by
  have own : ownFills fills = [] := by
    rw [ownFills, List.filter_eq_nil_iff]
    intro fill member
    simp [inferred fill member]
  have others : inferredFills fills = fills := by
    rw [inferredFills, List.filter_eq_self]
    intro fill member
    simp [inferred fill member]
  have left : remaining (orderOf fills trades) = trades := by
    simp [remaining, orderOf, own, leftOf]
  rw [feeCoverageMatches_iff unique]
  constructor
  · intro covered
    have aggregate := covered.aggregate (by rw [orderOf, others]; exact some')
    rwa [left, orderOf, others] at aggregate
  · intro aggregate
    refine ⟨some', rows, sides, fun fill member => ?_, by simp [orderOf, own],
      fun fill member => ?_, fun none => ?_, fun _ => ?_⟩
    · have origin : fill.nativeFillOrigin ≠ key "te_paper" := by
        rw [inferred fill member]
        decide
      simp [paperFine, origin]
    · rw [orderOf, own] at member
      exact absurd member List.not_mem_nil
    · rw [orderOf, others] at none
      exact absurd none some'
    · rwa [left, orderOf, others]

theorem sums_decide {fills : List (NativeFill ℚ)} {trades : List (FeeTrade ℚ)} {a b : ℚ}
    (rows : trades ≠ []) (filled : feeContext.sum (nativeQuantities fills) = .ok a)
    (traded : feeContext.sum (quantities trades) = .ok b) :
    (a ≠ b → aggregateCovers fills trades = .ok false) ∧
    (a = b → feeContext.sumProducts (nativeCosts fills) = .ok a →
      feeContext.sumProducts (costs trades) = .ok a →
      (∀ trade ∈ trades, ∃ fill ∈ fills, trade.tsEventMs * 1000000 ≤ fill.tsEventNs) →
      aggregateCovers fills trades = .ok true) := by
  unfold aggregateCovers
  rw [if_neg rows]
  simp only [filled, traded, bind_eq_ok, arithmetic_eq_ok, Except.ok.injEq, exists_eq_left']
  constructor
  · exact fun apart => if_pos apart
  · intro same filledCost tradedCost time
    refine (if_neg (not_not.2 same)).trans ?_
    simp only [filledCost, tradedCost, bind_eq_ok, arithmetic_eq_ok, Except.ok.injEq,
      exists_eq_left']
    refine (if_neg (not_not.2 rfl)).trans ?_
    rw [pure_eq_ok, List.all_eq_true]
    intro trade listed
    obtain ⟨fill, member, late⟩ := time trade listed
    exact any_max?.2 ⟨_, List.mem_map_of_mem member, late⟩

theorem finish_natCast {n : ℕ} (short : n < 10 ^ 20) : feeContext.finish (n : ℚ) = .ok n := by
  refine Context.Counted.finish (k := 0) ⟨n, by simp⟩ (by decide) (by decide) ?_
  have bound : (n : ℚ) < 10 ^ 20 := by exact_mod_cast short
  rw [Nat.abs_cast]
  refine bound.trans_le ?_
  simp only [feeContext]
  norm_num

theorem finish_one : feeContext.finish 1 = .ok 1 := by
  have kept := finish_natCast (n := 1) (by norm_num)
  rwa [Nat.cast_one] at kept

theorem finish_rounded : feeContext.finish (1 + 1 / 10 ^ 28) = .ok 1 := by
  have near := finish_near (x := 1 + 1 / 10 ^ 28) (e := 0) (m := 10 ^ 27) (k := -27)
    (by norm_num [abs_of_pos]) (by norm_num [abs_of_pos]) (by norm_num) (by norm_num)
    (by norm_num [abs_of_pos]) (by norm_num)
  rw [near]
  norm_num

theorem sum_cons {x next total : ℚ} {rest : List ℚ} {start : ℚ}
    (add : feeContext.add start x = .ok next) (sum : rest.foldlM feeContext.add next = .ok total) :
    (x :: rest).foldlM feeContext.add start = .ok total := by
  rw [List.foldlM_cons, add]
  exact sum

theorem sumProducts_ones (values : List ℚ) : ∀ {start total : ℚ},
    (∀ x ∈ values, feeContext.finish x = .ok x) → values.foldlM feeContext.add start = .ok total →
    (values.map fun x => (x, (1 : ℚ))).foldlM
      (fun total pair => do feeContext.add total (← feeContext.mul pair.1 pair.2)) start =
        .ok total := by
  induction values with
  | nil => exact fun _ sum => sum
  | cons x rest ih =>
    intro start total kept sum
    rw [List.foldlM_cons, bind_eq_ok] at sum
    obtain ⟨next, first, later⟩ := sum
    rw [List.map_cons, List.foldlM_cons, Context.mul, mul_one, kept x List.mem_cons_self]
    change (feeContext.add start x >>= _) = _
    rw [first]
    exact ih (fun y member => kept y (List.mem_cons_of_mem x member)) later

/-- Sums that agree only after rounding pass for equal. -/
theorem roundedOrder_covered {fromDecimal : ℚ → Option ℚ} :
    feeCoverageMatches fromDecimal roundedOrder = .ok true ∧
      (nativeQuantities roundedOrder.nativeFills).sum ≠
      (quantities roundedOrder.venueTrades).sum := by
  have one : ∀ x : ℚ, feeContext.finish x = .ok 1 → feeContext.sum [x] = .ok 1 := by
    intro x rounded
    exact sum_cons (by rw [Context.add, zero_add, rounded]) rfl
  have product : ∀ x : ℚ, feeContext.finish x = .ok 1 →
      feeContext.sumProducts [(x, 1)] = .ok 1 := by
    intro x rounded
    rw [Context.sumProducts, List.foldlM_cons, Context.mul, mul_one, rounded]
    change (feeContext.finish (0 + 1) >>= pure) = _
    rw [zero_add, finish_one]
    rfl
  have filled : feeContext.sum (nativeQuantities roundedOrder.nativeFills) = .ok 1 :=
    one _ finish_rounded
  have traded : feeContext.sum (quantities roundedOrder.venueTrades) = .ok 1 := one 1 finish_one
  constructor
  · refine (inferred_covers (by decide) (by decide) (by decide) (by decide +kernel) (by decide)).2
      ?_
    exact (sums_decide (by decide) filled traded).2 rfl (product _ finish_rounded)
      (product 1 finish_one) (by decide)
  · norm_num [roundedOrder, orderOf, fillOf, tradeOf, nativeQuantities, quantities]

/-- Fills that lose their digits to the sum, and the trade that is as large as the first of them. -/
def largeFill : NativeFill ℚ := fillOf "T-1" "inferred" (10 ^ 28) 0

def smallFills : List (NativeFill ℚ) :=
  [fillOf "T-2" "inferred" 3 0, fillOf "T-3" "inferred" 3 0]

def largeTrades : List (FeeTrade ℚ) := [tradeOf 7 (10 ^ 28) none]

theorem finish_large : feeContext.finish (10 ^ 28) = .ok (10 ^ 28) := by
  have near := finish_near (x := 10 ^ 28) (e := 28) (m := 10 ^ 27) (k := 1) (by norm_num)
    (by norm_num) (by norm_num) (by norm_num) (by norm_num) (by norm_num)
  rw [near]
  norm_num

theorem add_three : feeContext.add (10 ^ 28) 3 = .ok (10 ^ 28) := by
  have near := finish_near (x := 10 ^ 28 + 3) (e := 28) (m := 10 ^ 27) (k := 1) (by norm_num)
    (by norm_num) (by norm_num) (by norm_num) (by norm_num [abs_of_pos]) (by norm_num)
  rw [Context.add, near]
  norm_num

theorem add_large : feeContext.add 6 (10 ^ 28) = .ok (10 ^ 28 + 10) := by
  have near := finish_near (x := 6 + 10 ^ 28) (e := 28) (m := 10 ^ 27 + 1) (k := 1) (by norm_num)
    (by norm_num) (by norm_num) (by norm_num) (by norm_num [abs_of_neg]) (by norm_num)
  rw [Context.add, near]
  norm_num

/-- The sum of the same fills depends on their order, and so does the coverage. -/
theorem largeFill_reordered {fromDecimal : ℚ → Option ℚ} :
    feeCoverageMatches fromDecimal (orderOf (largeFill :: smallFills) largeTrades) = .ok true ∧
      feeCoverageMatches fromDecimal (orderOf (smallFills ++ [largeFill]) largeTrades) ≠
      .ok true := by
  have start : ∀ x : ℚ, feeContext.finish x = .ok x → feeContext.add 0 x = .ok x := by
    intro x kept
    rw [Context.add, zero_add, kept]
  have three : feeContext.finish 3 = .ok 3 := finish_natCast (n := 3) (by norm_num)
  have six : feeContext.add 3 3 = .ok 6 := by
    have kept : feeContext.finish 6 = .ok 6 := finish_natCast (n := 6) (by norm_num)
    rw [Context.add, show (3 : ℚ) + 3 = 6 by norm_num, kept]
  have filled : feeContext.sum (nativeQuantities (largeFill :: smallFills)) = .ok (10 ^ 28) :=
    sum_cons (start _ finish_large) (sum_cons add_three (sum_cons add_three rfl))
  have reordered : feeContext.sum (nativeQuantities (smallFills ++ [largeFill])) =
      .ok (10 ^ 28 + 10) := sum_cons (start _ three) (sum_cons six (sum_cons add_large rfl))
  have traded : feeContext.sum (quantities largeTrades) = .ok (10 ^ 28) :=
    sum_cons (start _ finish_large) rfl
  have kept : ∀ x ∈ [(10 : ℚ) ^ 28, 3, 3], feeContext.finish x = .ok x := by
    intro x member
    simp only [List.mem_cons, List.not_mem_nil, or_false] at member
    obtain rfl | rfl | rfl := member
    · exact finish_large
    · exact three
    · exact three
  constructor
  · refine (inferred_covers (by decide) (by decide) (by decide) (by decide +kernel) (by decide)).2
      ?_
    refine (sums_decide (by decide) filled traded).2 rfl ?_ ?_ (by decide)
    · exact sumProducts_ones [10 ^ 28, 3, 3] kept filled
    · exact sumProducts_ones [10 ^ 28]
        (fun x member => kept x (by simpa using .inl (by simpa using member))) traded
  · intro covered
    have aggregate := (inferred_covers (by decide) (by decide) (by decide) (by decide +kernel)
      (by decide)).1 covered
    have refused := (sums_decide (by decide) reordered traded).1 (by norm_num)
    rw [refused] at aggregate
    cases aggregate

/-- A fill against its trade, and one whose trade has a fee that no money holds. -/
def wrongFill : NativeFill ℚ := fillOf "8" "tu" 2 0

def hugeFill : NativeFill ℚ := fillOf "7" "tu" 1 0

def hugeTrades : List (FeeTrade ℚ) := [tradeOf 7 1 (some (10 ^ 20)), tradeOf 8 1 none]

theorem hugeFee_refused : usdCommission usdMoney (10 ^ 20) = .error .money := by
  have kept : feeContext.finish (-10 ^ 20) = .ok (-10 ^ 20) := by
    refine Context.Counted.finish (k := 0) ⟨-10 ^ 20, by norm_num⟩ (by decide) (by decide) ?_
    simp only [feeContext]
    norm_num
  have refused : usdMoney (-10 ^ 20) = none := if_neg (by norm_num)
  simp only [usdCommission, kept, arithmetic, bind, Except.bind, refused]

/-- Which of two fills comes first decides whether the conversion of the fee is tried. -/
theorem wrongFill_reordered :
    feeCoverageMatches usdMoney (orderOf [wrongFill, hugeFill] hugeTrades) = .ok false ∧
      feeCoverageMatches usdMoney (orderOf [hugeFill, wrongFill] hugeTrades) = .error .money := by
  have sides : oneSide (orderOf [wrongFill, hugeFill] hugeTrades) = true ∧
      oneSide (orderOf [hugeFill, wrongFill] hugeTrades) = true := by decide +kernel
  let pool : Pool := (Dict.ofList (hugeTrades.map fun trade => (tradeText trade, trade)), [])
  have found : pool.1.get? (key "8") = some (tradeOf 8 1 none) ∧
      pool.1.get? (key "7") = some (tradeOf 7 1 (some (10 ^ 20))) := by decide +kernel
  constructor
  · have turn : coverFill usdMoney (orderOf [wrongFill, hugeFill] hugeTrades) wrongFill pool =
        .ok none := by
      have held : pool.1.get? wrongFill.tradeId = some (tradeOf 8 1 none) := found.1
      rw [coverFill, if_neg (by decide +kernel), if_neg (by decide)]
      simp only [held]
      exact if_pos (by decide +kernel)
    rw [feeCoverageMatches, if_neg (by decide), if_neg (by rw [sides.1]; decide)]
    change (coverFill usdMoney _ wrongFill pool >>= _) >>= _ = _
    rw [turn]
    rfl
  · have turn : coverFill usdMoney (orderOf [hugeFill, wrongFill] hugeTrades) hugeFill pool =
        .error .money := by
      have held : pool.1.get? hugeFill.tradeId = some (tradeOf 7 1 (some (10 ^ 20))) := found.2
      rw [coverFill, if_neg (by decide +kernel), if_neg (by decide)]
      simp only [held]
      refine (if_neg (by decide +kernel)).trans ?_
      have booked : feeBooked usdMoney hugeFill (tradeOf 7 1 (some (10 ^ 20))) = .error .money := by
        have fee : (tradeOf 7 1 (some (10 ^ 20))).rawFee = some (10 ^ 20) := rfl
        simp only [feeBooked, fee, hugeFee_refused]
        rw [if_neg (by decide), if_neg (by decide)]
        rfl
      rw [booked]
      rfl
    rw [feeCoverageMatches, if_neg (by decide), if_neg (by rw [sides.2]; decide)]
    change (coverFill usdMoney _ hugeFill pool >>= _) >>= _ = _
    rw [turn]
    rfl

/-- Sums of rounded amounts, and a conversion that is refused, depend on what they should not. -/
theorem coverage_unsound :
    (feeCoverageMatches usdMoney roundedOrder = .ok true ∧
      (nativeQuantities roundedOrder.nativeFills).sum ≠
        (quantities roundedOrder.venueTrades).sum) ∧
    (feeCoverageMatches usdMoney (orderOf (largeFill :: smallFills) largeTrades) = .ok true ∧
      feeCoverageMatches usdMoney (orderOf (smallFills ++ [largeFill]) largeTrades) ≠ .ok true) ∧
    feeCoverageMatches usdMoney (orderOf [wrongFill, hugeFill] hugeTrades) = .ok false ∧
    feeCoverageMatches usdMoney (orderOf [hugeFill, wrongFill] hugeTrades) = .error .money :=
  ⟨roundedOrder_covered, largeFill_reordered, wrongFill_reordered⟩

/-- A fill of its own with its final fee, and an inferred fill over another trade. -/
def coveredOrder : FeeMetadata ℚ :=
  orderOf [fillOf "7" "tu" 1 (1 / 4), fillOf "T-1" "inferred" 2 0]
    [tradeOf 7 1 (some (-1 / 4)), tradeOf 8 2 (some 0)]

theorem finish_quarter : feeContext.finish (1 / 4) = .ok (1 / 4) := by
  refine Context.Counted.finish (k := -2) ⟨25, by norm_num⟩ (by decide) (by decide) ?_
  simp only [feeContext]
  norm_num

theorem quarter_booked : usdCommission usdMoney (-1 / 4) = .ok (1 / 4) ∧
    usdCommission usdMoney 0 = .ok 0 := by
  have zero : feeContext.finish 0 = .ok 0 := finish_natCast (n := 0) (by norm_num)
  have cents : nearestEven (25 : ℚ) = 25 := nearestEven_intCast 25
  have nothing : nearestEven (0 : ℚ) = 0 := nearestEven_intCast 0
  have quarter : usdMoney (1 / 4) = some (1 / 4) := by
    rw [usdMoney, if_pos (by norm_num), show (1 / 4 : ℚ) * 100 = 25 by norm_num, cents]
    norm_num
  have none : usdMoney 0 = some 0 := by
    rw [usdMoney, if_pos (by norm_num), zero_mul, nothing]
    norm_num
  constructor
  · rw [usdCommission, show -(-1 / 4 : ℚ) = 1 / 4 by norm_num, finish_quarter]
    simp only [arithmetic, bind, Except.bind, quarter, pure, Except.pure]
  · rw [usdCommission, neg_zero, zero]
    simp only [arithmetic, bind, Except.bind, none, pure, Except.pure]

theorem coveredOrder_covered : feeCoverageMatches usdMoney coveredOrder = .ok true := by
  rw [feeCoverageMatches_iff (by decide)]
  have booked : Booked usdMoney (fillOf "7" "tu" 1 (1 / 4)) (tradeOf 7 1 (some (-1 / 4))) := by
    refine ⟨by decide +kernel, ?_⟩
    have fee : (tradeOf 7 1 (some (-1 / 4))).rawFee = some (-1 / 4) := rfl
    simp only [feeBooked, fee, quarter_booked.1]
    rw [if_neg (by decide), if_neg (by decide)]
    exact congrArg Except.ok (decide_eq_true rfl)
  have own : ownFills coveredOrder.nativeFills = [fillOf "7" "tu" 1 (1 / 4)] := by decide +kernel
  have inferred : inferredFills coveredOrder.nativeFills = [fillOf "T-1" "inferred" 2 0] := by
    decide +kernel
  have left : remaining coveredOrder = [tradeOf 8 2 (some 0)] := by decide +kernel
  have two : feeContext.sum [(2 : ℚ)] = .ok 2 := by
    have added : feeContext.add 0 2 = .ok 2 := by
      rw [Context.add, zero_add]
      exact finish_natCast (n := 2) (by norm_num)
    exact sum_cons added rfl
  have cost : feeContext.sumProducts [((2 : ℚ), 1)] = .ok 2 :=
    sumProducts_ones [2] (by
      intro x member
      rw [List.mem_singleton.1 member]
      exact finish_natCast (n := 2) (by norm_num)) two
  refine ⟨by decide, by decide, by decide +kernel, by decide +kernel, by decide +kernel, ?_, ?_, ?_⟩
  · rw [own]
    intro fill member
    rw [List.mem_singleton.1 member]
    exact ⟨tradeOf 7 1 (some (-1 / 4)), List.mem_cons_self, by decide +kernel, booked⟩
  · rw [inferred]
    exact nofun
  · rw [inferred, left]
    intro _
    have filled : feeContext.sum (nativeQuantities [fillOf "T-1" "inferred" 2 0]) = .ok 2 := two
    have traded : feeContext.sum (quantities [tradeOf 8 2 (some 0)]) = .ok 2 := two
    exact (sums_decide (by decide) filled traded).2 rfl cost cost (by decide)

theorem addNative_amounts (t : Tally) (native : NativeFill ℚ) {booked : ℚ}
    (dollars : native.commissionCurrency = usd)
    (sum : feeContext.add (t.amounts usd).native native.commission = .ok booked) :
    ∃ t', t.addNative native = .ok t' ∧ t'.amounts usd = { t.amounts usd with native := booked } ∧
      t'.pending = t.pending ∧ t'.unknown = t.unknown := by
  refine ⟨{ t with totals := t.totals.set usd { t.amounts usd with native := booked } }, ?_, ?_,
    rfl, rfl⟩
  · simp only [Tally.addNative, dollars, bind_eq_ok, arithmetic_eq_ok, pure_eq_ok]
    exact ⟨booked, sum, rfl⟩
  · rw [Tally.amounts, Dict.get?_set_self, Option.getD_some]

theorem addTrade_amounts (t : Tally) (trade : FeeTrade ℚ) {fee raw cost quantized : ℚ}
    (final : trade.rawFee = some fee) (dollars : trade.feeCurrency = some usd)
    (difference : feeContext.sub (t.amounts usd).raw fee = .ok raw)
    (booked : usdCommission usdMoney fee = .ok cost)
    (sum : feeContext.add (t.amounts usd).quantized cost = .ok quantized) :
    ∃ t', t.addTrade usdMoney trade = .ok t' ∧
      t'.amounts usd = { t.amounts usd with raw, quantized } ∧
      t'.pending = t.pending ∧ t'.unknown = t.unknown := by
  refine ⟨{ t with totals := t.totals.set usd { t.amounts usd with raw, quantized } }, ?_, ?_, rfl,
    rfl⟩
  · simp only [Tally.addTrade, final, bind_eq_ok, raiseIf_eq_ok, not_not, arithmetic_eq_ok,
      pure_eq_ok]
    exact ⟨(), dollars, raw, difference, cost, booked, quantized, sum, rfl⟩
  · rw [Tally.amounts, Dict.get?_set_self, Option.getD_some]

theorem coveredOrder_summary : ∃ summary,
    summarizeFees usdMoney [coveredOrder] 0 true = .ok summary ∧ summary.complete = true := by
  have quarter : feeContext.finish (0 + 1 / 4) = .ok (1 / 4) := by
    rw [zero_add]
    exact finish_quarter
  have same : feeContext.finish (1 / 4 + 0) = .ok (1 / 4) := by
    rw [add_zero]
    exact finish_quarter
  have raw : feeContext.finish (0 - -1 / 4) = .ok (1 / 4) := by
    rw [show (0 - -1 / 4 : ℚ) = 1 / 4 by norm_num]
    exact finish_quarter
  have kept : feeContext.finish (1 / 4 - 0) = .ok (1 / 4) := by
    rw [sub_zero]
    exact finish_quarter
  obtain ⟨t₁, first, amounts₁, counts₁⟩ := addNative_amounts { unknown := 0 }
    (fillOf "7" "tu" 1 (1 / 4)) rfl quarter
  obtain ⟨t₂, second, amounts₂, counts₂⟩ := addNative_amounts t₁
    (fillOf "T-1" "inferred" 2 0) rfl (by rw [amounts₁]; exact same)
  obtain ⟨t₃, third, amounts₃, counts₃⟩ := addTrade_amounts t₂
    (tradeOf 7 1 (some (-1 / 4))) rfl rfl (by rw [amounts₂, amounts₁]; exact raw)
    quarter_booked.1 (by rw [amounts₂, amounts₁]; exact quarter)
  obtain ⟨t₄, fourth, -, counts₄⟩ := addTrade_amounts t₃
    (tradeOf 8 2 (some 0)) rfl rfl (by rw [amounts₃]; exact kept) quarter_booked.2
    (by rw [amounts₃]; exact same)
  have order : Tally.addOrder usdMoney { unknown := 0 } coveredOrder = .ok t₄ := by
    simp only [Tally.addOrder, bind_eq_ok]
    refine ⟨true, coveredOrder_covered, t₂, ?_, ?_⟩
    · exact bind_eq_ok.2 ⟨t₁, first, bind_eq_ok.2 ⟨t₂, second, rfl⟩⟩
    · exact bind_eq_ok.2 ⟨t₃, third, bind_eq_ok.2 ⟨t₄, fourth, rfl⟩⟩
  refine ⟨t₄.summary true, ?_, ?_⟩
  · rw [summarizeFees, List.foldlM_cons, order]
    rfl
  · have counts : t₄.pending = 0 ∧ t₄.unknown = 0 := by
      rw [counts₄.1, counts₄.2, counts₃.1, counts₃.2, counts₂.1, counts₂.2, counts₁.1, counts₁.2]
      exact ⟨rfl, rfl⟩
    exact decide_eq_true ⟨counts.1, counts.2, rfl⟩

theorem fees_sound_covered : FeesSound usdMoney [coveredOrder] ∧ Sound coveredOrder ∧
    ∃ summary, summarizeFees usdMoney [coveredOrder] 0 true = .ok summary ∧
      summary.complete = true := by
  have sound : FeesSound usdMoney [coveredOrder] := fees_sound [coveredOrder] (by decide)
  exact ⟨sound, sound.sound coveredOrder List.mem_cons_self coveredOrder_covered,
    coveredOrder_summary⟩

end Demo

end ArbNautilus.Bitfinex.FeeCoverage
