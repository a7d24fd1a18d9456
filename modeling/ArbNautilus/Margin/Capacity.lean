import ArbNautilus.Base.Context

namespace ArbNautilus.Margin

open Base

inductive MarginError
  | valueError (message : String)
  | decimal (error : DecimalError)
deriving DecidableEq

/-- The established arithmetic of 28 digits; the default context has the same. -/
def capacityContext : Context := ⟨28, -999999, 999999⟩

def within {α : Type} (result : Except DecimalError α) : Except MarginError α :=
  result.mapError .decimal

@[simp] theorem within_eq_ok {α : Type} {result : Except DecimalError α} {a : α} :
    within result = .ok a ↔ result = .ok a := by
  cases result <;> simp [within, Except.mapError]

section Source

/-- Of finite inputs; answers with the combined margin level. -/
def validateInputs (marginTarget baseMarginLevel : ℚ) (priceName : String) (price : ℚ) :
    Except MarginError ℚ := do
  raiseIf (price ≤ 0) (.valueError (priceName ++ " must be positive"))
  let denominator ← within (capacityContext.add marginTarget baseMarginLevel)
  raiseIf (denominator ≤ 0)
    (.valueError "combined margin target and base margin must be positive")
  pure denominator

/-- What a holding limit leaves to buy and to sell. -/
def tradeCapacity (holdingLimit positionOunces : ℚ) : Except DecimalError (ℚ × ℚ) := do
  let buy ← capacityContext.sub holdingLimit positionOunces
  let sell ← capacityContext.add holdingLimit positionOunces
  pure (max buy 0, max sell 0)

/-- The `holding_limit` of `bitfinex_margin_capacity`. -/
def bitfinexHoldingLimit (denominator positionOunces referencePrice collateral unrealizedPnl
    availableBalance freeMargin : ℚ) : Except DecimalError ℚ := do
  let ratio ← capacityContext.div 10000 denominator
  let leverage : ℚ := ⌊ratio⌋
  let funds ← capacityContext.add collateral unrealizedPnl
  let totalAvailable ← capacityContext.add funds availableBalance
  let levered ← capacityContext.mul totalAvailable leverage
  let equityBound ← capacityContext.div levered referencePrice
  let leveredFree ← capacityContext.mul freeMargin leverage
  let freeBound ← capacityContext.div leveredFree referencePrice
  let held ← capacityContext.abs positionOunces
  let freeBound ← capacityContext.add ⌊freeBound⌋ held
  pure (min (⌊equityBound⌋ : ℚ) freeBound)

/-- Both holding bounds, without a minimum-one leverage. -/
def bitfinexMarginCapacity (marginTarget baseMarginLevel positionOunces referencePrice collateral
    unrealizedPnl availableBalance freeMargin : ℚ) : Except MarginError (ℚ × ℚ) := do
  let denominator ← validateInputs marginTarget baseMarginLevel "reference_price" referencePrice
  let holdingLimit ← within (bitfinexHoldingLimit denominator positionOunces referencePrice
    collateral unrealizedPnl availableBalance freeMargin)
  within (tradeCapacity holdingLimit positionOunces)

/-- The `holding_limit` of `mt5_margin_capacity`; it divides once. -/
def mt5HoldingLimit (denominator ask equity : ℚ) : Except DecimalError ℚ := do
  let scaled ← capacityContext.mul equity 10000
  let unit ← capacityContext.mul denominator ask
  let quotient ← capacityContext.div scaled unit
  pure ⌊quotient⌋

def mt5MarginCapacity (marginTarget baseMarginLevel positionOunces ask equity : ℚ) :
    Except MarginError (ℚ × ℚ) := do
  let denominator ← validateInputs marginTarget baseMarginLevel "ask" ask
  let holdingLimit ← within (mt5HoldingLimit denominator ask equity)
  within (tradeCapacity holdingLimit positionOunces)

/-- The dynamic limits include the position; the route caps are trade amounts. -/
def intersectCapacity (dynamic : ℚ × ℚ) (quantity routeBuy routeSell maxAbs : ℚ) :
    Except MarginError (ℚ × ℚ) := do
  [dynamic.1, dynamic.2, routeBuy, routeSell, maxAbs].forM fun value =>
    raiseIf (value < 0) (.valueError "capacity limits must be finite and nonnegative")
  let buy ← within (capacityContext.sub maxAbs quantity)
  let sell ← within (capacityContext.add maxAbs quantity)
  pure (min (min dynamic.1 routeBuy) (max buy 0), min (min dynamic.2 routeSell) (max sell 0))

end Source

section Exact

open Context

/-- A result that the context keeps as it is. -/
structure Kept (x : ℚ) : Prop where
  digits : HasDigits 28 x
  normal : capacityContext.Normal x

theorem Kept.finish {x : ℚ} (h : Kept x) : capacityContext.finish x = .ok x :=
  finish_of_hasDigits h.digits h.normal

theorem ten_pow_le_limit : (10 : ℚ) ^ (10 : ℤ) ≤ 10 ^ (capacityContext.emax + 1) :=
  zpow_le_zpow_right₀ (by norm_num) (by decide)

theorem quantum_quotient {x : ℚ} (some' : x ≠ 0) (small : |x| < 10 ^ 4) :
    capacityContext.quantum x ≤ -24 := by
  have below : Int.log 10 |x| < 4 := by
    rw [← Int.lt_zpow_iff_log_lt (by norm_num) (abs_pos.2 some')]
    exact_mod_cast small
  simp only [quantum, etiny, capacityContext]
  omega

/-- A quotient of short numbers is never rounded to or past an integer above it. -/
theorem div_floor {x y : ℚ} (numerator : HasDigits 17 x) (denominator : HasDigits 24 y)
    (positive : 0 < y) (small : |x / y| < 10 ^ 4) (normal : capacityContext.Normal (x / y)) :
    ∃ quotient, capacityContext.div x y = .ok quotient ∧ ⌊quotient⌋ = ⌊x / y⌋ := by
  by_cases zero : x / y = 0
  · refine ⟨0, ?_, by rw [zero]⟩
    have kept : Kept 0 := ⟨⟨0, 0, by norm_num, by simp⟩, fun some' => absurd rfl some'⟩
    rw [Context.div_eq _ positive.ne', zero]
    exact kept.finish
  · have fine := quantum_quotient zero small
    have unit : (10 : ℚ) ^ capacityContext.quantum (x / y) ≤ 10 ^ (-24 : ℤ) :=
      zpow_le_zpow_right₀ (by norm_num) fine
    have close := abs_nearest_sub_le (c := capacityContext) (x / y)
    refine ⟨capacityContext.nearest (x / y), ?_, ?_⟩
    · have bounded : |capacityContext.nearest (x / y)| < 10 ^ (10 : ℤ) := by
        have gap := abs_sub_abs_le_abs_sub (capacityContext.nearest (x / y)) (x / y)
        rw [abs_sub_comm] at gap
        norm_num at unit ⊢
        linarith
      rw [Context.div_eq _ positive.ne', finish, raiseIf,
        if_neg (not_le.2 (bounded.trans_le ten_pow_le_limit))]
      rfl
    · apply floor_nearest (by decide) (by omega) normal
      intro n some' above
      obtain ⟨N, j, short, rfl⟩ := numerator
      obtain ⟨M, j', short', rfl⟩ := denominator
      have M0 : 0 < M := by
        have := (mul_pos_iff_of_pos_right (by positivity)).1 positive
        exact_mod_cast this
      have split : (N * 10 ^ j : ℚ) / (M * 10 ^ j') = N / M * 10 ^ (j - j') := by
        rw [zpow_sub₀ (by norm_num : (10 : ℚ) ≠ 0), mul_div_mul_comm]
      have short : |(N : ℚ)| < 10 ^ 17 := by exact_mod_cast short
      have short' : (M : ℚ) < 10 ^ 24 := by
        rw [abs_of_pos M0] at short'
        exact_mod_cast short'
      rw [split] at above close unit ⊢
      have apart := quotient_apart (B := 10 ^ 24) (j := j - j') M0 (by norm_num) short'.le
        (by norm_num at short ⊢; linarith) some' above.ne
      rw [abs_of_pos (sub_pos.2 above)] at apart
      norm_num at unit apart
      linarith

/-- MT5 inputs whose quotient stays clear of the integers it is not. -/
structure Mt5Short (denominator ask equity : ℚ) : Prop where
  levelDigits : HasDigits 12 denominator
  askDigits : HasDigits 12 ask
  equityDigits : HasDigits 12 equity
  small : |equity * 10000 / (denominator * ask)| < 10 ^ 4
  normal : ∀ x ∈ [denominator, equity * 10000, denominator * ask,
    equity * 10000 / (denominator * ask)], capacityContext.Normal x

theorem mt5HoldingLimit_floor {denominator ask equity : ℚ} (short : Mt5Short denominator ask equity)
    (positive : 0 < denominator) (priced : 0 < ask) :
    mt5HoldingLimit denominator ask equity = .ok ⌊equity * 10000 / (denominator * ask)⌋ := by
  have normal := short.normal
  simp only [List.forall_mem_cons] at normal
  obtain ⟨-, scaled, unit, quotient, -⟩ := normal
  have numerator : HasDigits 17 (equity * 10000) := by
    have tenThousand : HasDigits 5 ((10000 : ℤ) : ℚ) := .intCast (by norm_num)
    exact_mod_cast short.equityDigits.mul tenThousand
  have product := short.levelDigits.mul short.askDigits
  obtain ⟨r, divided, floor⟩ :=
    div_floor numerator product (mul_pos positive priced) short.small quotient
  have first : capacityContext.mul equity 10000 = .ok (equity * 10000) :=
    Kept.finish ⟨numerator.mono (by norm_num), scaled⟩
  have second : capacityContext.mul denominator ask = .ok (denominator * ask) :=
    Kept.finish ⟨product.mono (by norm_num), unit⟩
  simp only [mt5HoldingLimit, bind_eq_ok, pure_eq_ok]
  exact ⟨_, first, _, second, r, divided, by rw [floor]⟩

/-- The floor is the most that the combined margin level lets one hold. -/
theorem floor_isGreatest {denominator ask equity : ℚ} (positive : 0 < denominator)
    (priced : 0 < ask) : IsGreatest {n : ℤ | n * ask * denominator ≤ 10000 * equity}
      ⌊equity * 10000 / (denominator * ask)⌋ := by
  have same : ∀ n : ℤ, (n : ℚ) * ask * denominator ≤ 10000 * equity ↔
      n ≤ ⌊equity * 10000 / (denominator * ask)⌋ := by
    intro n
    rw [Int.le_floor, le_div_iff₀ (mul_pos positive priced)]
    constructor <;> intro le <;> linarith
  exact ⟨(same _).2 le_rfl, fun n member => (same n).1 member⟩

/-- The leverage that `bitfinex_margin_capacity` allows, and both its bounds. -/
def exactLeverage (denominator : ℚ) : ℤ := ⌊10000 / denominator⌋

def exactBound (funds denominator referencePrice : ℚ) : ℤ :=
  ⌊funds * exactLeverage denominator / referencePrice⌋

/-- Funds whose levered quotient stays clear of the integers it is not. -/
structure FundsShort (funds denominator referencePrice : ℚ) : Prop where
  fundsDigits : HasDigits 12 funds
  small : |funds * exactLeverage denominator / referencePrice| < 10 ^ 4
  normal : ∀ x ∈ [funds, funds * exactLeverage denominator,
    funds * exactLeverage denominator / referencePrice], capacityContext.Normal x

structure BitfinexShort (denominator positionOunces referencePrice collateral unrealizedPnl
    availableBalance freeMargin : ℚ) : Prop where
  levelDigits : HasDigits 12 denominator
  priceDigits : HasDigits 12 referencePrice
  small : |10000 / denominator| < 10 ^ 4
  normal : ∀ x ∈ [denominator, 10000 / denominator], capacityContext.Normal x
  /-- The first of the two additions is exact too. -/
  partly : Kept (collateral + unrealizedPnl)
  total : FundsShort (collateral + unrealizedPnl + availableBalance) denominator referencePrice
  free : FundsShort freeMargin denominator referencePrice
  held : Kept |positionOunces|
  withHeld : Kept (exactBound freeMargin denominator referencePrice + |positionOunces|)

/-- The lesser of the two exact holding bounds. -/
def exactLimit (denominator positionOunces referencePrice total freeMargin : ℚ) : ℚ :=
  min (exactBound total denominator referencePrice : ℚ)
    (exactBound freeMargin denominator referencePrice + |positionOunces|)

theorem bound_floor {funds denominator referencePrice : ℚ}
    (short : FundsShort funds denominator referencePrice) (positive : 0 < denominator)
    (leverage : |10000 / denominator| < 10 ^ 4) (digits : HasDigits 12 referencePrice)
    (priced : 0 < referencePrice) :
    ∃ levered quotient, capacityContext.mul funds (exactLeverage denominator) = .ok levered ∧
      capacityContext.div levered referencePrice = .ok quotient ∧
      ⌊quotient⌋ = exactBound funds denominator referencePrice := by
  have normal := short.normal
  simp only [List.forall_mem_cons] at normal
  obtain ⟨-, scaled, quotient, -⟩ := normal
  have four : HasDigits 5 (exactLeverage denominator : ℚ) := by
    have ratio : 0 < 10000 / denominator := by positivity
    have floor : 0 ≤ exactLeverage denominator := Int.floor_nonneg.2 ratio.le
    rw [abs_of_pos ratio] at leverage
    have above : exactLeverage denominator < 10 ^ 4 :=
      Int.floor_lt.2 (by exact_mod_cast leverage)
    apply HasDigits.intCast
    rw [abs_of_nonneg floor]
    omega
  have product := short.fundsDigits.mul four
  obtain ⟨r, divided, floor⟩ :=
    div_floor product (digits.mono (by norm_num)) priced short.small quotient
  exact ⟨_, r, Kept.finish ⟨product.mono (by norm_num), scaled⟩, divided, floor⟩

theorem bitfinexHoldingLimit_floor {denominator positionOunces referencePrice collateral
    unrealizedPnl availableBalance freeMargin : ℚ}
    (short : BitfinexShort denominator positionOunces referencePrice collateral unrealizedPnl
      availableBalance freeMargin) (positive : 0 < denominator) (priced : 0 < referencePrice) :
    bitfinexHoldingLimit denominator positionOunces referencePrice collateral unrealizedPnl
      availableBalance freeMargin = .ok (exactLimit denominator positionOunces referencePrice
        (collateral + unrealizedPnl + availableBalance) freeMargin) := by
  have tenThousand : HasDigits 17 (10000 : ℚ) := by
    have five : HasDigits 5 ((10000 : ℤ) : ℚ) := .intCast (by norm_num)
    exact_mod_cast five.mono (by norm_num)
  have normal := short.normal
  simp only [List.forall_mem_cons] at normal
  obtain ⟨ratio, divided, floor⟩ := div_floor tenThousand (short.levelDigits.mono (by norm_num))
    positive short.small normal.2.1
  have total : capacityContext.add (collateral + unrealizedPnl) availableBalance =
      .ok (collateral + unrealizedPnl + availableBalance) :=
    Kept.finish ⟨short.total.fundsDigits.mono (by norm_num), short.total.normal _ (by simp)⟩
  obtain ⟨levered, quotient, first, second, bound⟩ :=
    bound_floor short.total positive short.small short.priceDigits priced
  obtain ⟨levered', quotient', first', second', bound'⟩ :=
    bound_floor short.free positive short.small short.priceDigits priced
  simp only [bitfinexHoldingLimit, bind_eq_ok, pure_eq_ok]
  refine ⟨ratio, divided, _, short.partly.finish, _, total, levered, ?_, quotient, second,
    levered', ?_, quotient', second', _, short.held.finish,
    exactBound freeMargin denominator referencePrice + |positionOunces|, ?_, ?_⟩
  · rw [floor]
    exact first
  · rw [floor]
    exact first'
  · rw [bound']
    exact short.withHeld.finish
  · rw [bound]
    rfl

end Exact

section Clamp

/-- A trade within both differences moves no position beyond both limits. -/
theorem abs_add_le_limit {q t limit maxAbs : ℚ} (nonneg : 0 ≤ t) (dynamic : t ≤ max (limit - q) 0)
    (capped : t ≤ max (maxAbs - q) 0) : |q + t| ≤ max |q| (min limit maxAbs) := by
  rcases nonneg.eq_or_lt with zero | trades
  · rw [← zero, add_zero]
    exact le_max_left _ _
  · have first : t ≤ limit - q := (le_max_iff.1 dynamic).resolve_right (not_le.2 trades)
    have second : t ≤ maxAbs - q := (le_max_iff.1 capped).resolve_right (not_le.2 trades)
    rw [abs_le]
    constructor
    · have low := neg_abs_le q
      have least := le_max_left |q| (min limit maxAbs)
      linarith
    · exact le_max_of_le_right (le_min (by linarith) (by linarith))

/-- A capacity that trades within the route caps keep a position within both limits by. -/
def Admits (capacity : Except MarginError (ℚ × ℚ)) (q limit : ℚ) : Prop :=
  ∃ dynamic, capacity = .ok dynamic ∧ ∀ routeBuy routeSell maxAbs : ℚ,
    0 ≤ routeBuy → 0 ≤ routeSell → 0 ≤ maxAbs → Kept (maxAbs - q) → Kept (maxAbs + q) →
    ∃ buy sell, intersectCapacity dynamic q routeBuy routeSell maxAbs = .ok (buy, sell) ∧
      ∀ t, 0 ≤ t → (t ≤ buy → |q + t| ≤ max |q| (min limit maxAbs)) ∧
        (t ≤ sell → |q - t| ≤ max |q| (min limit maxAbs))

theorem intersectCapacity_bounds {q limit routeBuy routeSell maxAbs : ℚ} (buys : 0 ≤ routeBuy)
    (sells : 0 ≤ routeSell) (caps : 0 ≤ maxAbs) (below : Kept (maxAbs - q))
    (above : Kept (maxAbs + q)) :
    ∃ buy sell, intersectCapacity (max (limit - q) 0, max (limit + q) 0) q routeBuy routeSell
        maxAbs = .ok (buy, sell) ∧
      ∀ t, 0 ≤ t → (t ≤ buy → |q + t| ≤ max |q| (min limit maxAbs)) ∧
        (t ≤ sell → |q - t| ≤ max |q| (min limit maxAbs)) := by
  refine ⟨min (min (max (limit - q) 0) routeBuy) (max (maxAbs - q) 0),
    min (min (max (limit + q) 0) routeSell) (max (maxAbs + q) 0), ?_, fun t nonneg => ⟨?_, ?_⟩⟩
  · have first : capacityContext.sub maxAbs q = .ok (maxAbs - q) := below.finish
    have second : capacityContext.add maxAbs q = .ok (maxAbs + q) := above.finish
    simp [intersectCapacity, first, second, bind_eq_ok, raiseIf, not_lt.2 buys, not_lt.2 sells,
      not_lt.2 caps]
  · intro le
    obtain ⟨dynamic, capped⟩ := le_min_iff.1 le
    exact abs_add_le_limit nonneg (dynamic.trans (min_le_left _ _)) capped
  · intro le
    obtain ⟨dynamic, capped⟩ := le_min_iff.1 le
    have mirrored := abs_add_le_limit (q := -q) nonneg
      (by rw [sub_neg_eq_add]; exact dynamic.trans (min_le_left _ _))
      (by rw [sub_neg_eq_add]; exact capped)
    rwa [abs_neg, show -q + t = -(q - t) by ring, abs_neg] at mirrored

end Clamp

section Sound

open Context

theorem validateInputs_ok {marginTarget baseMarginLevel price : ℚ} (priceName : String)
    (priced : 0 < price) (positive : 0 < marginTarget + baseMarginLevel)
    (kept : Kept (marginTarget + baseMarginLevel)) :
    validateInputs marginTarget baseMarginLevel priceName price =
      .ok (marginTarget + baseMarginLevel) := by
  have sum : capacityContext.add marginTarget baseMarginLevel = .ok _ := kept.finish
  rw [validateInputs, raiseIf, if_neg (not_le.2 priced)]
  simp [sum, positive, bind_eq_ok]

theorem tradeCapacity_ok {limit q : ℚ} (below : Kept (limit - q)) (above : Kept (limit + q)) :
    tradeCapacity limit q = .ok (max (limit - q) 0, max (limit + q) 0) := by
  have first : capacityContext.sub limit q = .ok _ := below.finish
  have second : capacityContext.add limit q = .ok _ := above.finish
  simp [tradeCapacity, first, second, bind_eq_ok]

/-- Within 28 digits the holding limits are the exact floors, and no trade within the capacity
left by the route caps takes a position beyond both its holding limit and its cap. -/
theorem margin_capacity_exact {marginTarget baseMarginLevel q : ℚ}
    (positive : 0 < marginTarget + baseMarginLevel) :
    (∀ ask equity, 0 < ask → Mt5Short (marginTarget + baseMarginLevel) ask equity →
      ∃ limit : ℤ,
        IsGreatest {n : ℤ | n * ask * (marginTarget + baseMarginLevel) ≤ 10000 * equity} limit ∧
        mt5HoldingLimit (marginTarget + baseMarginLevel) ask equity = .ok limit ∧
        (Kept (limit - q) → Kept (limit + q) →
          Admits (mt5MarginCapacity marginTarget baseMarginLevel q ask equity) q limit)) ∧
    (∀ referencePrice collateral unrealizedPnl availableBalance freeMargin, 0 < referencePrice →
      BitfinexShort (marginTarget + baseMarginLevel) q referencePrice collateral unrealizedPnl
        availableBalance freeMargin →
      let limit := exactLimit (marginTarget + baseMarginLevel) q referencePrice
        (collateral + unrealizedPnl + availableBalance) freeMargin
      bitfinexHoldingLimit (marginTarget + baseMarginLevel) q referencePrice collateral
        unrealizedPnl availableBalance freeMargin = .ok limit ∧
      (Kept (limit - q) → Kept (limit + q) →
        Admits (bitfinexMarginCapacity marginTarget baseMarginLevel q referencePrice collateral
          unrealizedPnl availableBalance freeMargin) q limit)) := by
  refine ⟨fun ask equity priced short => ?_,
    fun referencePrice collateral unrealizedPnl availableBalance freeMargin priced short => ?_⟩
  · have floor := mt5HoldingLimit_floor short positive priced
    refine ⟨_, floor_isGreatest positive priced, floor, fun below above => ?_⟩
    have valid := validateInputs_ok "ask" priced positive
      ⟨short.levelDigits.mono (by norm_num), short.normal _ (by simp)⟩
    refine ⟨_, ?_, fun routeBuy routeSell maxAbs => intersectCapacity_bounds⟩
    simp [mt5MarginCapacity, valid, floor, tradeCapacity_ok below above, bind_eq_ok]
  · have floor := bitfinexHoldingLimit_floor short positive priced
    refine ⟨floor, fun below above => ?_⟩
    have valid := validateInputs_ok "reference_price" priced positive
      ⟨short.levelDigits.mono (by norm_num), short.normal _ (by simp)⟩
    refine ⟨_, ?_, fun routeBuy routeSell maxAbs => intersectCapacity_bounds⟩
    simp [bitfinexMarginCapacity, valid, floor, tradeCapacity_ok below above, bind_eq_ok]

theorem normal_of_bounds {x : ℚ} (low : 1 / 10 ^ 40 ≤ |x|) (high : |x| < 10 ^ 10) :
    capacityContext.Normal x := by
  refine fun _ => ⟨?_, (by exact_mod_cast high : |x| < 10 ^ (10 : ℤ)).trans_le ten_pow_le_limit⟩
  have tiny : (10 : ℚ) ^ capacityContext.emin ≤ 10 ^ (-40 : ℤ) :=
    zpow_le_zpow_right₀ (by norm_num) (by decide)
  norm_num at tiny low ⊢
  linarith

theorem kept_ounces {x : ℚ} (n : ℤ) (whole : x = n) (short : |n| < 10 ^ 10) : Kept x := by
  rw [whole]
  refine ⟨.mono (by norm_num) (.intCast short), fun some' => ?_⟩
  have one : (1 : ℚ) ≤ |(n : ℚ)| := by exact_mod_cast Int.one_le_abs (by exact_mod_cast some')
  exact normal_of_bounds (by linarith [show (1 : ℚ) / 10 ^ 40 ≤ 1 by norm_num])
    (by exact_mod_cast short) some'

/-- An account that may hold five ounces. -/
theorem fiveOunces_short : Mt5Short (400 + 60) 4000 920 := by
  refine ⟨⟨46, 1, by norm_num, by norm_num⟩, ⟨4, 3, by norm_num, by norm_num⟩,
    ⟨92, 1, by norm_num, by norm_num⟩, by norm_num, ?_⟩
  simp only [List.forall_mem_cons]
  exact ⟨(kept_ounces 460 (by norm_num) (by norm_num)).normal,
    (kept_ounces 9200000 (by norm_num) (by norm_num)).normal,
    (kept_ounces 1840000 (by norm_num) (by norm_num)).normal,
    (kept_ounces 5 (by norm_num) (by norm_num)).normal, by simp⟩

theorem sourceOunces_leverage : exactLeverage (400 + 60) = 21 := by
  rw [exactLeverage]
  norm_num

theorem sourceOunces_bound : exactBound 1000 (400 + 60) 4000 = 5 := by
  rw [exactBound, sourceOunces_leverage]
  norm_num

theorem sourceOunces_short : BitfinexShort (400 + 60) 2 4000 1000 0 0 1000 := by
  have funds : FundsShort 1000 (400 + 60) 4000 := by
    refine ⟨⟨1, 3, by norm_num, by norm_num⟩, ?_, ?_⟩
    · rw [sourceOunces_leverage]
      norm_num
    · rw [sourceOunces_leverage]
      simp only [List.forall_mem_cons]
      exact ⟨(kept_ounces 1000 (by norm_num) (by norm_num)).normal,
        (kept_ounces 21000 (by norm_num) (by norm_num)).normal,
        normal_of_bounds (by norm_num) (by norm_num), by simp⟩
  refine ⟨⟨46, 1, by norm_num, by norm_num⟩, ⟨4, 3, by norm_num, by norm_num⟩, by norm_num, ?_,
    kept_ounces 1000 (by norm_num) (by norm_num), by simpa only [add_zero] using funds, funds,
    kept_ounces 2 (by norm_num) (by norm_num), ?_⟩
  · simp only [List.forall_mem_cons]
    exact ⟨(kept_ounces 460 (by norm_num) (by norm_num)).normal,
      normal_of_bounds (by norm_num) (by norm_num), by simp⟩
  · rw [sourceOunces_bound]
    exact kept_ounces 7 (by norm_num) (by norm_num)

theorem margin_capacity_exact_fiveOunces :
    Admits (mt5MarginCapacity 400 60 2 4000 920) 2 5 ∧
      Admits (bitfinexMarginCapacity 400 60 2 4000 1000 0 0 1000) 2 5 := by
  obtain ⟨mt5, bitfinex⟩ := margin_capacity_exact (q := 2) (show (0 : ℚ) < 400 + 60 by norm_num)
  constructor
  · obtain ⟨limit, greatest, -, admits⟩ := mt5 4000 920 (by norm_num) fiveOunces_short
    have five : limit = 5 := by
      rw [greatest.unique (floor_isGreatest (by norm_num) (by norm_num))]
      norm_num
    rw [five] at admits
    exact admits (kept_ounces 3 (by norm_num) (by norm_num))
      (kept_ounces 7 (by norm_num) (by norm_num))
  · obtain ⟨-, admits⟩ := bitfinex 4000 1000 0 0 1000 (by norm_num) sourceOunces_short
    have five : exactLimit (400 + 60) 2 4000 (1000 + 0 + 0) 1000 = 5 := by
      rw [exactLimit, show (1000 + 0 + 0 : ℚ) = 1000 by norm_num, sourceOunces_bound]
      norm_num
    rw [five] at admits
    exact admits (kept_ounces 3 (by norm_num) (by norm_num))
      (kept_ounces 7 (by norm_num) (by norm_num))

theorem finish_close {x : ℚ} (close : |x - 5| ≤ 1 / 10 ^ 30) :
    capacityContext.finish x = .ok 5 := by
  rw [abs_le] at close
  norm_num at close
  have level : capacityContext.quantum x = -27 := by
    have magnitude : |x| = x := abs_of_pos (by linarith)
    have log : Int.log 10 x = 0 := by
      apply le_antisymm
      · have : Int.log 10 x < 1 := by
          rw [← Int.lt_zpow_iff_log_lt (by norm_num) (by linarith)]
          norm_num
          linarith
        omega
      · rw [← Int.zpow_le_iff_le_log (by norm_num) (by linarith)]
        norm_num
        linarith
    simp only [quantum, etiny, capacityContext, magnitude, log]
    decide
  have five : capacityContext.nearest x = 5 := by
    rw [nearest_eq (m := 5 * 10 ^ 27) level]
    · norm_num
    · rw [abs_lt]
      norm_num
      constructor <;> linarith
  have bounded : ¬(10 : ℚ) ^ (capacityContext.emax + 1) ≤ |5| := by
    have limit := ten_pow_le_limit
    norm_num at limit ⊢
    linarith
  rw [finish, five, raiseIf, if_neg bounded]
  rfl

/-- A position of more digits than the arithmetic keeps: the capacity is rounded up. -/
theorem margin_capacity_rounds_up :
    Mt5Short (400 + 60) 4000 920 ∧ mt5HoldingLimit (400 + 60) 4000 920 = .ok 5 ∧
      ∃ dynamic buy sell, mt5MarginCapacity 400 60 (1 / 10 ^ 30) 4000 920 = .ok dynamic ∧
        intersectCapacity dynamic (1 / 10 ^ 30) 100 100 5 = .ok (buy, sell) ∧
        max |(1 / 10 ^ 30 : ℚ)| (min 5 5) < |1 / 10 ^ 30 + buy| := by
  have floor : mt5HoldingLimit (400 + 60) 4000 920 = .ok 5 := by
    rw [mt5HoldingLimit_floor fiveOunces_short (by norm_num) (by norm_num)]
    norm_num
  have valid : validateInputs 400 60 "ask" 4000 = .ok (400 + 60) :=
    validateInputs_ok "ask" (by norm_num) (by norm_num)
      ⟨fiveOunces_short.levelDigits.mono (by norm_num), fiveOunces_short.normal _ (by simp)⟩
  have below : capacityContext.sub 5 (1 / 10 ^ 30) = .ok 5 := finish_close (by norm_num)
  have above : capacityContext.add 5 (1 / 10 ^ 30) = .ok 5 := finish_close (by norm_num)
  refine ⟨fiveOunces_short, floor, (5, 5), 5, 5, ?_, ?_, by norm_num⟩
  · have limits : tradeCapacity 5 (1 / 10 ^ 30) = .ok (5, 5) := by
      simp only [tradeCapacity, below, above, bind_eq_ok, pure_eq_ok]
      exact ⟨5, rfl, 5, rfl, by norm_num⟩
    simp only [mt5MarginCapacity, valid, bind_eq_ok, within_eq_ok]
    exact ⟨_, rfl, _, floor, limits⟩
  · simp only [intersectCapacity, bind_eq_ok, within_eq_ok, pure_eq_ok]
    refine ⟨(), by simp [raiseIf], 5, below, 5, above, by norm_num⟩

/-- Underflow is not trapped: a loss too small for the exponents counts as no loss. -/
theorem mt5HoldingLimit_underflows : HasDigits 12 (-(10 : ℚ) ^ (-1500000 : ℤ)) ∧
    mt5HoldingLimit 1 1 (-10 ^ (-1500000 : ℤ)) = .ok 0 ∧
      ⌊-(10 : ℚ) ^ (-1500000 : ℤ) * 10000 / (1 * 1)⌋ < 0 := by
  have loss : -(10 : ℚ) ^ (-1500000 : ℤ) * 10000 = -10 ^ (-1499996 : ℤ) := by
    rw [show (-1499996 : ℤ) = -1500000 + 4 by norm_num, zpow_add₀ (by norm_num : (10 : ℚ) ≠ 0)]
    norm_num
  have magnitude : |-(10 : ℚ) ^ (-1499996 : ℤ)| = 10 ^ (-1499996 : ℤ) := by
    rw [abs_neg, abs_of_pos (by positivity)]
  have level : capacityContext.quantum (-10 ^ (-1499996 : ℤ)) = -1000026 := by
    have log : Int.log 10 ((10 : ℚ) ^ (-1499996 : ℤ)) = -1499996 :=
      Int.log_zpow (R := ℚ) (by norm_num : 1 < 10) _
    simp only [quantum, etiny, capacityContext, magnitude, log]
    decide
  have vanishes : capacityContext.nearest (-10 ^ (-1499996 : ℤ)) = 0 := by
    rw [nearest_eq (m := 0) level, Int.cast_zero, zero_mul]
    have ratio : (10 : ℚ) ^ (-1499996 : ℤ) / 10 ^ (-1000026 : ℤ) = 10 ^ (-499970 : ℤ) := by
      rw [← zpow_sub₀ (by norm_num : (10 : ℚ) ≠ 0)]
      norm_num
    have tiny : (10 : ℚ) ^ (-499970 : ℤ) ≤ 10 ^ (-1 : ℤ) :=
      zpow_le_zpow_right₀ (by norm_num) (by norm_num)
    rw [Int.cast_zero, sub_zero, abs_div, magnitude, abs_of_pos (by positivity), ratio]
    exact tiny.trans_lt (by norm_num)
  have zero : Kept 0 := kept_ounces 0 (by norm_num) (by norm_num)
  have one : Kept 1 := kept_ounces 1 (by norm_num) (by norm_num)
  refine ⟨⟨-1, -1500000, by norm_num, by rw [Int.cast_neg, Int.cast_one, neg_one_mul]⟩, ?_, ?_⟩
  · have scaled : capacityContext.mul (-10 ^ (-1500000 : ℤ)) 10000 = .ok 0 := by
      rw [Context.mul, loss, finish, vanishes, raiseIf, abs_zero, if_neg (not_le.2 (by positivity))]
      rfl
    have unit : capacityContext.mul 1 1 = .ok 1 := by
      rw [Context.mul, one_mul]
      exact one.finish
    have quotient : capacityContext.div 0 1 = .ok 0 := by
      rw [Context.div_eq _ one_ne_zero, div_one]
      exact zero.finish
    simp only [mt5HoldingLimit, bind_eq_ok, pure_eq_ok]
    exact ⟨0, scaled, 1, unit, 0, quotient, by norm_num⟩
  · rw [loss, Int.floor_lt, Int.cast_zero, one_mul, div_one, neg_lt_zero]
    positivity

/-- Nor is the first sum of three exact when the last cancels it. -/
theorem funds_rounded : HasDigits 12 ((10 : ℚ) ^ 30 + 1 / 10 ^ 5 + -10 ^ 30) ∧
    capacityContext.add (10 ^ 30) (1 / 10 ^ 5) = .ok (10 ^ 30) := by
  have level : capacityContext.quantum (10 ^ 30 + 1 / 10 ^ 5) = 3 := by
    have magnitude : |(10 : ℚ) ^ 30 + 1 / 10 ^ 5| = 10 ^ 30 + 1 / 10 ^ 5 :=
      abs_of_pos (by positivity)
    have log : Int.log 10 ((10 : ℚ) ^ 30 + 1 / 10 ^ 5) = 30 := by
      apply le_antisymm
      · have : Int.log 10 ((10 : ℚ) ^ 30 + 1 / 10 ^ 5) < 31 := by
          rw [← Int.lt_zpow_iff_log_lt (by norm_num) (by positivity)]
          norm_num
        omega
      · rw [← Int.zpow_le_iff_le_log (by norm_num) (by positivity)]
        norm_num
    simp only [quantum, etiny, capacityContext, magnitude, log]
    decide
  have rounded : capacityContext.nearest (10 ^ 30 + 1 / 10 ^ 5) = 10 ^ 30 := by
    rw [nearest_eq (m := 10 ^ 27) level] <;> norm_num
  refine ⟨⟨1, -5, by norm_num, by norm_num⟩, ?_⟩
  have bounded : ¬(10 : ℚ) ^ (capacityContext.emax + 1) ≤ |10 ^ 30| := by
    have limit : (10 : ℚ) ^ (31 : ℤ) ≤ 10 ^ (capacityContext.emax + 1) :=
      zpow_le_zpow_right₀ (by norm_num) (by decide)
    norm_num at limit ⊢
    linarith
  rw [Context.add, finish, rounded, raiseIf, if_neg bounded]
  rfl

end Sound

end ArbNautilus.Margin
