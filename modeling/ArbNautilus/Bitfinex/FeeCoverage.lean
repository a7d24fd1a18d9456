import ArbNautilus.Base.DecimalSum
import ArbNautilus.Base.JsonDump
import ArbNautilus.Bitfinex.Cids
import Mathlib.Data.List.Perm.Basic

namespace ArbNautilus.Bitfinex.FeeCoverage

open Base Cids

inductive FeeError
  | decimal (error : DecimalError)
  | money
  | reportError (message : String)
deriving DecidableEq, Repr

/-- The default arithmetic. -/
def feeContext : Context := ⟨28, -999999, 999999⟩

def paperRawSymbol : PyStr := key "tTESTXAUTF0:TESTUSDTF0"

/-- `USD.code`. -/
def usd : PyStr := key "USD"

section Source

def arithmetic {α : Type} : Except DecimalError α → Except FeeError α
  | .ok a => .ok a
  | .error e => .error (.decimal e)

-- `Money.from_decimal(amount, USD).as_decimal()`, or nothing where the library refuses.
variable (fromDecimal : ℚ → Option ℚ)

/-- `usd_commission(fee).as_decimal()`. -/
def usdCommission (fee : ℚ) : Except FeeError ℚ := do
  let cost ← arithmetic (feeContext.finish (-fee))
  match fromDecimal cost with
  | none => .error .money
  | some booked => pure booked

/-- `str(trade.trade_id)`. -/
def tradeText (trade : FeeTrade ℚ) : PyStr := .text (intText trade.tradeId)

def nativeFillMatchesTrade (native : NativeFill ℚ) (trade : FeeTrade ℚ) : Bool :=
  native.tradeId = tradeText trade ∧
    native.signedQuantity = trade.executionQty ∧
    native.price = trade.executionPrice ∧
    native.tsEventNs = trade.tsEventMs * 1000000 ∧
    native.liquiditySide = if trade.maker then key "MAKER" else key "TAKER"

/-- An interim fill books no fee, and only the paper venue has one. -/
def paperFine (order : FeeMetadata ℚ) (native : NativeFill ℚ) : Bool :=
  native.nativeFillOrigin = key "te_paper" → ¬(order.rawSymbol ≠ paperRawSymbol ∨
    native.commission ≠ 0 ∨ native.commissionCurrency ≠ usd)

/-- Whether the fill booked the final fee of its trade. -/
def feeBooked (native : NativeFill ℚ) (trade : FeeTrade ℚ) : Except FeeError Bool :=
  match trade.rawFee with
  | none => pure true
  | some fee =>
    if native.nativeFillOrigin = key "te_paper" then pure true
    else if some native.commissionCurrency ≠ trade.feeCurrency then pure false
    else do
      let cost ← usdCommission fromDecimal fee
      pure (native.commission = cost)

/-- The trades that no fill has taken, and the inferred fills. -/
abbrev Pool := Dict PyStr (FeeTrade ℚ) × List (NativeFill ℚ)

/-- One turn of the loop; nothing for `return False`. -/
def coverFill (order : FeeMetadata ℚ) (native : NativeFill ℚ) (pool : Pool) :
    Except FeeError (Option Pool) :=
  if paperFine order native = false then pure none
  else if native.nativeFillOrigin = key "inferred" then pure (some (pool.1, pool.2 ++ [native]))
  else match pool.1.get? native.tradeId with
    | none => pure none
    | some trade =>
      if nativeFillMatchesTrade native trade = false then pure none
      else do
        let booked ← feeBooked fromDecimal native trade
        pure (if booked then some (pool.1.erase native.tradeId, pool.2) else none)

def coverFills (order : FeeMetadata ℚ) : List (NativeFill ℚ) → Pool → Except FeeError (Option Pool)
  | [], pool => pure (some pool)
  | native :: rest, pool => do
    match ← coverFill fromDecimal order native pool with
    | none => pure none
    | some pool => coverFills order rest pool

def quantities (trades : List (FeeTrade ℚ)) : List ℚ := trades.map (·.executionQty)

def costs (trades : List (FeeTrade ℚ)) : List (ℚ × ℚ) :=
  trades.map fun trade => (trade.executionQty, trade.executionPrice)

def nativeQuantities (fills : List (NativeFill ℚ)) : List ℚ := fills.map (·.signedQuantity)

def nativeCosts (fills : List (NativeFill ℚ)) : List (ℚ × ℚ) :=
  fills.map fun fill => (fill.signedQuantity, fill.price)

/-- Whether the inferred fills, of which there are some, cover the trades that are left. -/
def aggregateCovers (inferred : List (NativeFill ℚ)) (trades : List (FeeTrade ℚ)) :
    Except FeeError Bool := do
  if trades = [] then pure false
  else
    let quantity ← arithmetic (feeContext.sum (nativeQuantities inferred))
    let executed ← arithmetic (feeContext.sum (quantities trades))
    if quantity ≠ executed then pure false
    else
      let cost ← arithmetic (feeContext.sumProducts (nativeCosts inferred))
      let executedCost ← arithmetic (feeContext.sumProducts (costs trades))
      if cost ≠ executedCost then pure false
      else pure (trades.all fun trade =>
        (inferred.map (·.tsEventNs)).max?.any (trade.tsEventMs * 1000000 ≤ ·))

/-- The fills are of one side, and the trades of the same. -/
def oneSide (order : FeeMetadata ℚ) : Bool :=
  let nativeSides := (order.nativeFills.map fun fill => decide (0 < fill.signedQuantity)).toFinset
  nativeSides.card = 1 ∧
    nativeSides = (order.venueTrades.map fun trade => decide (0 < trade.executionQty)).toFinset

/-- `_fee_coverage_matches`. -/
def feeCoverageMatches (order : FeeMetadata ℚ) : Except FeeError Bool :=
  if order.nativeFills = [] ∨ order.venueTrades = [] then pure false
  else if oneSide order = false then pure false
  else do
    let trades := Dict.ofList (order.venueTrades.map fun trade => (tradeText trade, trade))
    match ← coverFills fromDecimal order order.nativeFills (trades, []) with
    | none => pure false
    | some (left, inferred) =>
      if inferred = [] then pure (left.values = [])
      else aggregateCovers inferred left.values

end Source

section Matching

variable {α β κ : Type} [DecidableEq κ] {f : α → κ} {g : β → κ} {R : α → β → Prop}

/-- What is left of the values when those of some keys are taken. -/
def leftOf (f : α → κ) (g : β → κ) (taken : List α) (values : List β) : List β :=
  values.filter fun b => ∀ a ∈ taken, f a ≠ g b

/-- Takers of different keys that each find a value of theirs share the values out. -/
theorem exists_matched {taken : List α} (once : (taken.map f).Nodup) : ∀ {values : List β},
    (values.map g).Nodup → (∀ a ∈ taken, ∃ b ∈ values, g b = f a ∧ R a b) →
    ∃ matched, List.Forall₂ R taken matched ∧
      (matched ++ leftOf f g taken values).Perm values := by
  induction taken with
  | nil =>
    intro values _ _
    refine ⟨[], .nil, ?_⟩
    simp [leftOf]
  | cons a rest ih =>
    intro values unique each
    obtain ⟨fresh, once⟩ := List.nodup_cons.1 once
    obtain ⟨b, listed, named, related⟩ := each a List.mem_cons_self
    have others : ∀ a' ∈ rest, ∃ b' ∈ values.filter (fun b => f a ≠ g b), g b' = f a' ∧
        R a' b' := by
      intro a' member
      obtain ⟨b', listed', named', related'⟩ := each a' (List.mem_cons_of_mem a member)
      refine ⟨b', List.mem_filter.2 ⟨listed', decide_eq_true fun same => fresh ?_⟩, named',
        related'⟩
      exact List.mem_map.2 ⟨a', member, named'.symm.trans same.symm⟩
    obtain ⟨matched, pairs, shared⟩ := ih once (unique.sublist (List.filter_sublist.map g)) others
    have split : (b :: values.filter fun b => f a ≠ g b).Perm values := by
      have mine : (values.filter fun b => f a = g b).Perm [b] := by
        refine (List.perm_ext_iff_of_nodup ((unique.of_map g).filter _)
          (List.nodup_singleton b)).2 fun b' => ?_
        rw [List.mem_filter, decide_eq_true_eq, List.mem_singleton]
        constructor
        · rintro ⟨listed', same⟩
          exact List.inj_on_of_nodup_map unique listed' listed (same.symm.trans named.symm)
        · rintro rfl
          exact ⟨listed, named.symm⟩
      have parts := (mine.symm.append_right _).trans
        (List.filter_append_perm (fun b => decide (f a = g b)) values)
      simpa using parts
    refine ⟨b :: matched, .cons related pairs, ?_⟩
    have left : leftOf f g (a :: rest) values =
        leftOf f g rest (values.filter fun b => f a ≠ g b) := by
      rw [leftOf, leftOf, List.filter_filter]
      refine List.filter_congr fun b' _ => ?_
      rw [Bool.eq_iff_iff]
      simp [and_comm]
    rw [left, List.cons_append]
    exact (shared.cons b).trans split

end Matching

section Loop

variable {fromDecimal : ℚ → Option ℚ} {order : FeeMetadata ℚ} {native : NativeFill ℚ}

/-- The fills that stand for a trade of their own. -/
def ownFills (fills : List (NativeFill ℚ)) : List (NativeFill ℚ) :=
  fills.filter (·.nativeFillOrigin ≠ key "inferred")

def inferredFills (fills : List (NativeFill ℚ)) : List (NativeFill ℚ) :=
  fills.filter (·.nativeFillOrigin = key "inferred")

/-- The fill has the facts of the trade, and booked its final fee. -/
def Booked (fromDecimal : ℚ → Option ℚ) (native : NativeFill ℚ) (trade : FeeTrade ℚ) : Prop :=
  nativeFillMatchesTrade native trade = true ∧ feeBooked fromDecimal native trade = .ok true

theorem coverFill_own {pool pool' : Pool} (own : native.nativeFillOrigin ≠ key "inferred") :
    coverFill fromDecimal order native pool = .ok (some pool') ↔ paperFine order native = true ∧
      ∃ trade, pool.1.get? native.tradeId = some trade ∧ Booked fromDecimal native trade ∧
        pool' = (pool.1.erase native.tradeId, pool.2) := by
  unfold coverFill
  by_cases paper : paperFine order native = false
  · rw [if_pos paper, paper]
    exact ⟨nofun, fun h => absurd h.1 (by decide)⟩
  · rw [if_neg paper, if_neg own]
    cases found : pool.1.get? native.tradeId with
    | none => exact ⟨nofun, by rintro ⟨-, trade, held, -⟩; cases held⟩
    | some trade =>
      by_cases facts : nativeFillMatchesTrade native trade = false
      · have clash : ¬Booked fromDecimal native trade := fun booked =>
          absurd (facts.symm.trans booked.1) (by decide)
        simp only [if_pos facts]
        refine ⟨nofun, ?_⟩
        rintro ⟨-, _, same, booked, -⟩
        cases same
        exact absurd booked clash
      · simp only [if_neg facts, bind_eq_ok, pure_eq_ok]
        constructor
        · rintro ⟨_ | _, booked, same⟩
          · cases same
          · exact ⟨eq_true_of_ne_false paper, trade, rfl, ⟨eq_true_of_ne_false facts, booked⟩,
              (Option.some.inj same).symm⟩
        · rintro ⟨-, _, same, booked, rfl⟩
          cases same
          exact ⟨true, booked.2, rfl⟩

theorem coverFill_inferred {pool pool' : Pool}
    (inferred : native.nativeFillOrigin = key "inferred") :
    coverFill fromDecimal order native pool = .ok (some pool') ↔ paperFine order native = true ∧
      pool' = (pool.1, pool.2 ++ [native]) := by
  unfold coverFill
  by_cases paper : paperFine order native = false
  · rw [if_pos paper, paper]
    exact ⟨nofun, fun h => absurd h.1 (by decide)⟩
  · rw [if_neg paper, if_pos inferred, pure_eq_ok, Option.some.injEq]
    exact ⟨fun same => ⟨eq_true_of_ne_false paper, same.symm⟩, fun h => h.2.symm⟩

/-- What every turn of the loop together asks, and what it leaves. -/
theorem coverFills_eq_ok {fills : List (NativeFill ℚ)} : ∀ {pool pool' : Pool},
    coverFills fromDecimal order fills pool = .ok (some pool') ↔
      (∀ fill ∈ fills, paperFine order fill = true) ∧
      ((ownFills fills).map (·.tradeId)).Nodup ∧
      (∀ fill ∈ ownFills fills, ∃ trade, pool.1.get? fill.tradeId = some trade ∧
        Booked fromDecimal fill trade) ∧
      pool' = ((ownFills fills).foldl (fun left fill => left.erase fill.tradeId) pool.1,
        pool.2 ++ inferredFills fills) := by
  induction fills with
  | nil =>
    intro pool pool'
    simp only [coverFills, pure_eq_ok, Option.some.injEq, ownFills, inferredFills, List.filter_nil,
      List.map_nil, List.nodup_nil, List.not_mem_nil, false_imp_iff, implies_true, true_and,
      List.foldl_nil, List.append_nil]
    exact eq_comm
  | cons native rest ih =>
    intro pool pool'
    have turn : coverFills fromDecimal order (native :: rest) pool = .ok (some pool') ↔
        ∃ next, coverFill fromDecimal order native pool = .ok (some next) ∧
          coverFills fromDecimal order rest next = .ok (some pool') := by
      simp only [coverFills, bind_eq_ok]
      constructor
      · rintro ⟨_ | next, first, later⟩
        · cases later
        · exact ⟨next, first, later⟩
      · rintro ⟨next, first, later⟩
        exact ⟨some next, first, later⟩
    rw [turn]
    by_cases inferred : native.nativeFillOrigin = key "inferred"
    · have own : ownFills (native :: rest) = ownFills rest := by simp [ownFills, inferred]
      have more : inferredFills (native :: rest) = native :: inferredFills rest := by
        simp [inferredFills, inferred]
      simp only [coverFill_inferred inferred, own, more, List.forall_mem_cons]
      constructor
      · rintro ⟨next, ⟨paper, rfl⟩, later⟩
        obtain ⟨papers, once, booked, rfl⟩ := ih.1 later
        exact ⟨⟨paper, papers⟩, once, booked, by simp⟩
      · rintro ⟨⟨paper, papers⟩, once, booked, rfl⟩
        exact ⟨_, ⟨paper, rfl⟩, ih.2 ⟨papers, once, booked, by simp⟩⟩
    · have own : ownFills (native :: rest) = native :: ownFills rest := by simp [ownFills, inferred]
      have same : inferredFills (native :: rest) = inferredFills rest := by
        simp [inferredFills, inferred]
      simp only [coverFill_own inferred, own, same, List.forall_mem_cons, List.map_cons,
        List.nodup_cons, List.foldl_cons]
      constructor
      · rintro ⟨next, ⟨paper, trade, found, mine, rfl⟩, later⟩
        obtain ⟨papers, once, booked, rfl⟩ := ih.1 later
        refine ⟨⟨paper, papers⟩, ⟨fun taken => ?_, once⟩, ⟨⟨trade, found, mine⟩, ?_⟩, rfl⟩
        · obtain ⟨fill, member, named⟩ := List.mem_map.1 taken
          obtain ⟨trade', found', -⟩ := booked fill member
          rw [Dict.get?_erase, if_pos named.symm] at found'
          cases found'
        · intro fill member
          obtain ⟨trade', found', theirs⟩ := booked fill member
          rw [Dict.get?_erase] at found'
          split at found'
          · cases found'
          · exact ⟨trade', found', theirs⟩
      · rintro ⟨⟨paper, papers⟩, ⟨fresh, once⟩, ⟨⟨trade, found, mine⟩, booked⟩, rfl⟩
        refine ⟨_, ⟨paper, trade, found, mine, rfl⟩,
          ih.2 ⟨papers, once, fun fill member => ?_, rfl⟩⟩
        obtain ⟨trade', found', theirs⟩ := booked fill member
        refine ⟨trade', ?_, theirs⟩
        rw [Dict.get?_erase, if_neg]
        · exact found'
        · exact fun same => fresh (List.mem_map.2 ⟨fill, member, same.symm⟩)

end Loop

section Texts

theorem intText_injective : Function.Injective intText := by
  intro a b same
  have digits : ∀ n : ℕ, Nat.toDigits 10 n ≠ [] := fun n => Nat.toDigits_ne_nil
  have sign : ∀ n m : ℕ, '-' :: Nat.toDigits 10 n ≠ Nat.toDigits 10 m := by
    intro n m same
    have digit := Nat.isDigit_of_mem_toDigits (b := 10) (by decide) (by decide)
      (same ▸ List.mem_cons_self : '-' ∈ Nat.toDigits 10 m)
    exact absurd digit (by decide)
  have value : ∀ {n m : ℕ}, Nat.toDigits 10 n = Nat.toDigits 10 m → n = m := by
    intro n m same
    rw [← Nat.ofDigitChars_ten_toDigits (n := n), same, Nat.ofDigitChars_ten_toDigits]
  unfold intText at same
  split at same <;> split at same
  · have := value (List.cons.inj same).2
    omega
  · exact absurd same (sign _ _)
  · exact absurd same.symm (sign _ _)
  · have := value same
    omega

theorem tradeText_nodup {trades : List (FeeTrade ℚ)} (unique : (trades.map (·.tradeId)).Nodup) :
    (trades.map tradeText).Nodup := by
  have texts : trades.map tradeText =
      (trades.map (·.tradeId)).map fun id => .text (intText id) := by
    rw [List.map_map]
    rfl
  rw [texts]
  exact unique.map fun a b same => intText_injective (PyStr.text.inj same)

end Texts

section Coverage

variable {fromDecimal : ℚ → Option ℚ} {order : FeeMetadata ℚ}

/-- The trades that no fill of their own stands for. -/
def remaining (order : FeeMetadata ℚ) : List (FeeTrade ℚ) :=
  leftOf (·.tradeId) tradeText (ownFills order.nativeFills) order.venueTrades

theorem entries_trades {trades : List (FeeTrade ℚ)} (unique : (trades.map (·.tradeId)).Nodup) :
    (Dict.ofList (trades.map fun trade => (tradeText trade, trade))).entries =
      trades.map fun trade => (tradeText trade, trade) := by
  apply Dict.entries_ofList_of_nodup
  rw [List.map_map]
  exact tradeText_nodup unique

theorem values_erased {trades : List (FeeTrade ℚ)} (unique : (trades.map (·.tradeId)).Nodup)
    (fills : List (NativeFill ℚ)) :
    (fills.foldl (fun left fill => left.erase fill.tradeId)
      (Dict.ofList (trades.map fun trade => (tradeText trade, trade)))).values =
        leftOf (·.tradeId) tradeText fills trades := by
  have erased : ∀ d : Dict PyStr (FeeTrade ℚ),
      (fills.foldl (fun left fill => left.erase fill.tradeId) d).entries =
        d.entries.filter fun e => ∀ fill ∈ fills, fill.tradeId ≠ e.1 := by
    induction fills with
    | nil => simp
    | cons fill rest ih =>
      intro d
      rw [List.foldl_cons, ih, Dict.erase, List.filter_filter]
      refine List.filter_congr fun e _ => ?_
      rw [Bool.eq_iff_iff, Bool.and_eq_true, decide_eq_true_eq, decide_eq_true_eq,
        decide_eq_true_eq, List.forall_mem_cons]
      exact ⟨fun h => ⟨h.2.symm, h.1⟩, fun h => ⟨h.2, h.1.symm⟩⟩
  rw [Dict.values, erased, entries_trades unique, List.filter_map, List.map_map, leftOf]
  exact List.map_id _

theorem get?_trades {trades : List (FeeTrade ℚ)} (unique : (trades.map (·.tradeId)).Nodup)
    {id : PyStr} {trade : FeeTrade ℚ} :
    (Dict.ofList (trades.map fun trade => (tradeText trade, trade))).get? id = some trade ↔
      trade ∈ trades ∧ tradeText trade = id := by
  rw [← Dict.mem_entries_iff, entries_trades unique, List.mem_map]
  constructor
  · rintro ⟨_, member, same⟩
    cases same
    exact ⟨member, rfl⟩
  · rintro ⟨member, rfl⟩
    exact ⟨trade, member, rfl⟩

/-- What a matching coverage comes down to, with no order of the fills or the trades. -/
structure Covered (fromDecimal : ℚ → Option ℚ) (order : FeeMetadata ℚ) : Prop where
  fills : order.nativeFills ≠ []
  trades : order.venueTrades ≠ []
  sides : oneSide order = true
  paper : ∀ fill ∈ order.nativeFills, paperFine order fill = true
  once : ((ownFills order.nativeFills).map (·.tradeId)).Nodup
  booked : ∀ fill ∈ ownFills order.nativeFills, ∃ trade ∈ order.venueTrades,
    tradeText trade = fill.tradeId ∧ Booked fromDecimal fill trade
  own : inferredFills order.nativeFills = [] → remaining order = []
  aggregate : inferredFills order.nativeFills ≠ [] →
    aggregateCovers (inferredFills order.nativeFills) (remaining order) = .ok true

theorem feeCoverageMatches_iff (unique : (order.venueTrades.map (·.tradeId)).Nodup) :
    feeCoverageMatches fromDecimal order = .ok true ↔ Covered fromDecimal order := by
  let trades := Dict.ofList (order.venueTrades.map fun trade => (tradeText trade, trade))
  have loop : ∀ {pool : Pool},
      coverFills fromDecimal order order.nativeFills (trades, []) = .ok (some pool) ↔
        (∀ fill ∈ order.nativeFills, paperFine order fill = true) ∧
        ((ownFills order.nativeFills).map (·.tradeId)).Nodup ∧
        (∀ fill ∈ ownFills order.nativeFills, ∃ trade ∈ order.venueTrades,
          tradeText trade = fill.tradeId ∧ Booked fromDecimal fill trade) ∧
        pool = ((ownFills order.nativeFills).foldl (fun left fill => left.erase fill.tradeId)
          trades,
          inferredFills order.nativeFills) := by
    intro pool
    simp only [coverFills_eq_ok, trades, get?_trades unique, List.nil_append, and_assoc]
  have left : ((ownFills order.nativeFills).foldl (fun left fill => left.erase fill.tradeId)
      trades).values = remaining order := values_erased unique _
  have verdict : (if inferredFills order.nativeFills = [] then pure (decide
        (((ownFills order.nativeFills).foldl (fun left fill => left.erase fill.tradeId)
          trades).values = []))
      else aggregateCovers (inferredFills order.nativeFills)
        ((ownFills order.nativeFills).foldl (fun left fill => left.erase fill.tradeId)
          trades).values : Except FeeError Bool) = .ok true ↔
      (inferredFills order.nativeFills = [] → remaining order = []) ∧
        (inferredFills order.nativeFills ≠ [] →
          aggregateCovers (inferredFills order.nativeFills) (remaining order) = .ok true) := by
    rw [left]
    by_cases absent : inferredFills order.nativeFills = []
    · rw [if_pos absent, pure_eq_ok, decide_eq_true_eq]
      exact ⟨fun nothing => ⟨fun _ => nothing, fun present => absurd absent present⟩,
        fun h => h.1 absent⟩
    · rw [if_neg absent]
      exact ⟨fun covers => ⟨fun nothing => absurd nothing absent, fun _ => covers⟩,
        fun h => h.2 absent⟩
  unfold feeCoverageMatches
  by_cases rows : order.nativeFills = [] ∨ order.venueTrades = []
  · rw [if_pos rows]
    exact ⟨nofun, fun covered => absurd rows (not_or.2 ⟨covered.fills, covered.trades⟩)⟩
  · rw [if_neg rows]
    obtain ⟨fills, listed⟩ := not_or.1 rows
    by_cases sides : oneSide order = false
    · rw [if_pos sides]
      exact ⟨nofun, fun covered => absurd (sides.symm.trans covered.sides) (by decide)⟩
    · rw [if_neg sides]
      change (coverFills fromDecimal order order.nativeFills (trades, []) >>= _) = _ ↔ _
      rw [bind_eq_ok]
      constructor
      · rintro ⟨_ | pool, covered, matches'⟩
        · cases matches'
        · obtain ⟨paper, once, booked, rfl⟩ := loop.1 covered
          obtain ⟨own, aggregate⟩ := verdict.1 matches'
          exact ⟨fills, listed, eq_true_of_ne_false sides, paper, once, booked, own, aggregate⟩
      · intro covered
        exact ⟨_, loop.2 ⟨covered.paper, covered.once, covered.booked, rfl⟩,
          verdict.2 ⟨covered.own, covered.aggregate⟩⟩

end Coverage

section Order

variable {fromDecimal : ℚ → Option ℚ} {order : FeeMetadata ℚ}

def products (pairs : List (ℚ × ℚ)) : List ℚ := pairs.map fun p => p.1 * p.2

/-- The sums over the inferred fills, and over what they have to cover, keep all their digits. -/
structure ExactOrder (order : FeeMetadata ℚ) : Prop where
  fills : feeContext.Exact (nativeQuantities (inferredFills order.nativeFills))
  trades : feeContext.Exact (quantities (remaining order))
  fillCosts : feeContext.Exact (products (nativeCosts (inferredFills order.nativeFills)))
  tradeCosts : feeContext.Exact (products (costs (remaining order)))

/-- The inferred fills cover the trades, in exact numbers. -/
structure Aggregates (inferred : List (NativeFill ℚ)) (trades : List (FeeTrade ℚ)) : Prop where
  rows : trades ≠ []
  quantity : (nativeQuantities inferred).sum = (quantities trades).sum
  cost : (products (nativeCosts inferred)).sum = (products (costs trades)).sum
  time : ∀ trade ∈ trades, ∃ fill ∈ inferred, trade.tsEventMs * 1000000 ≤ fill.tsEventNs

theorem any_max? {times : List ℤ} {t : ℤ} :
    times.max?.any (t ≤ ·) = true ↔ ∃ s ∈ times, t ≤ s := by
  cases largest : times.max? with
  | none =>
    rw [List.max?_eq_none_iff] at largest
    simp [largest]
  | some s =>
    obtain ⟨listed, top⟩ := List.max?_eq_some_iff.1 largest
    rw [Option.any_some, decide_eq_true_eq]
    exact ⟨fun le => ⟨s, listed, le⟩, fun ⟨r, member, le⟩ => le.trans (top r member)⟩

theorem aggregateCovers_exact (exact' : ExactOrder order) :
    ∃ covers, aggregateCovers (inferredFills order.nativeFills) (remaining order) = .ok covers ∧
      (covers = true ↔ Aggregates (inferredFills order.nativeFills) (remaining order)) := by
  unfold aggregateCovers
  by_cases none : remaining order = []
  · rw [if_pos none]
    exact ⟨false, rfl, nofun, fun covers => absurd none covers.rows⟩
  · rw [if_neg none]
    have fills : arithmetic (feeContext.sum (nativeQuantities (inferredFills order.nativeFills))) =
        .ok (nativeQuantities (inferredFills order.nativeFills)).sum := by
      rw [exact'.fills.sum]
      rfl
    have trades : arithmetic (feeContext.sum (quantities (remaining order))) =
        .ok (quantities (remaining order)).sum := by
      rw [exact'.trades.sum]
      rfl
    have fillCosts : arithmetic (feeContext.sumProducts
        (nativeCosts (inferredFills order.nativeFills))) =
        .ok (products (nativeCosts (inferredFills order.nativeFills))).sum := by
      rw [Context.Exact.sumProducts exact'.fillCosts]
      rfl
    have tradeCosts : arithmetic (feeContext.sumProducts (costs (remaining order))) =
        .ok (products (costs (remaining order))).sum := by
      rw [Context.Exact.sumProducts exact'.tradeCosts]
      rfl
    simp only [fills, trades, fillCosts, tradeCosts, bind_eq_ok, Except.ok.injEq, exists_eq_left']
    by_cases quantity : (nativeQuantities (inferredFills order.nativeFills)).sum =
        (quantities (remaining order)).sum
    · by_cases cost : (products (nativeCosts (inferredFills order.nativeFills))).sum =
          (products (costs (remaining order))).sum
      · refine ⟨_, (if_neg (not_not.2 quantity)).trans (bind_eq_ok.2 ⟨_, rfl,
          bind_eq_ok.2 ⟨_, rfl, if_neg (not_not.2 cost)⟩⟩), ?_⟩
        simp only [List.all_eq_true, any_max?, List.mem_map, exists_exists_and_eq_and]
        exact ⟨fun time => ⟨none, quantity, cost, time⟩, fun covers => covers.time⟩
      · refine ⟨false, (if_neg (not_not.2 quantity)).trans (bind_eq_ok.2 ⟨_, rfl,
          bind_eq_ok.2 ⟨_, rfl, if_pos cost⟩⟩), nofun, fun covers => absurd covers.cost cost⟩
    · exact ⟨false, if_pos quantity, nofun, fun covers => absurd covers.quantity quantity⟩

variable {order' : FeeMetadata ℚ} (fills : order.nativeFills.Perm order'.nativeFills)
  (trades : order.venueTrades.Perm order'.venueTrades)

include fills

theorem ownFills_perm : (ownFills order.nativeFills).Perm (ownFills order'.nativeFills) :=
  fills.filter _

theorem inferredFills_perm :
    (inferredFills order.nativeFills).Perm (inferredFills order'.nativeFills) :=
  fills.filter _

include trades

theorem remaining_perm : (remaining order).Perm (remaining order') := by
  have same : remaining order =
      leftOf (·.tradeId) tradeText (ownFills order'.nativeFills) order.venueTrades := by
    refine List.filter_congr fun trade _ => ?_
    simp only [(ownFills_perm fills).mem_iff]
  rw [same]
  exact trades.filter _

theorem ExactOrder.perm (exact' : ExactOrder order) : ExactOrder order' where
  fills := exact'.fills.perm ((inferredFills_perm fills).map _)
  trades := exact'.trades.perm ((remaining_perm fills trades).map _)
  fillCosts := exact'.fillCosts.perm (((inferredFills_perm fills).map _).map _)
  tradeCosts := exact'.tradeCosts.perm (((remaining_perm fills trades).map _).map _)

theorem Aggregates.perm
    (covers : Aggregates (inferredFills order.nativeFills) (remaining order)) :
    Aggregates (inferredFills order'.nativeFills) (remaining order') := by
  have own := inferredFills_perm fills
  have left := remaining_perm fills trades
  refine ⟨fun none => covers.rows ?_, ?_, ?_, fun trade member => ?_⟩
  · rw [none] at left
    exact left.eq_nil
  · exact ((own.map _).sum_eq.symm.trans covers.quantity).trans (left.map _).sum_eq
  · exact (((own.map _).map _).sum_eq.symm.trans covers.cost).trans ((left.map _).map _).sum_eq
  · obtain ⟨fill, listed, late⟩ := covers.time trade (left.mem_iff.2 member)
    exact ⟨fill, own.mem_iff.1 listed, late⟩

theorem Covered.perm (scope : order'.rawSymbol = order.rawSymbol)
    (exact' : inferredFills order.nativeFills ≠ [] → ExactOrder order)
    (covered : Covered fromDecimal order) : Covered fromDecimal order' := by
  have own := ownFills_perm fills
  have others := inferredFills_perm fills
  have left := remaining_perm fills trades
  refine ⟨fun none => covered.fills ?_, fun none => covered.trades ?_, ?_, fun fill member => ?_,
    (own.map _).nodup_iff.1 covered.once, fun fill member => ?_, fun none => ?_, fun present => ?_⟩
  · rw [none] at fills
    exact fills.eq_nil
  · rw [none] at trades
    exact trades.eq_nil
  · rw [← covered.sides, oneSide, oneSide, List.toFinset_eq_of_perm _ _ (fills.map _),
      List.toFinset_eq_of_perm _ _ (trades.map _)]
  · rw [← covered.paper fill (fills.mem_iff.2 member), paperFine, paperFine, scope]
  · obtain ⟨trade, listed, booked⟩ := covered.booked fill (own.mem_iff.2 member)
    exact ⟨trade, trades.mem_iff.1 listed, booked⟩
  · rw [none] at others
    have nothing := covered.own others.eq_nil
    rw [nothing] at left
    exact left.symm.eq_nil
  · have some' : inferredFills order.nativeFills ≠ [] := by
      intro none
      rw [none] at others
      exact present others.symm.eq_nil
    obtain ⟨covers, computed, iff⟩ := aggregateCovers_exact (exact' some')
    have same : covers = true := Except.ok.inj (computed.symm.trans (covered.aggregate some'))
    obtain ⟨covers', computed', iff'⟩ := aggregateCovers_exact ((exact' some').perm fills trades)
    rw [computed', iff'.2 ((iff.1 same).perm fills trades)]

end Order

section Soundness

variable {fromDecimal : ℚ → Option ℚ} {order : FeeMetadata ℚ}

/-- What a matching coverage says of the fills and the trades. -/
structure Sound (order : FeeMetadata ℚ) : Prop where
  /-- Each fill has a trade of its own with its facts; the others remain. -/
  matched : ∃ matched, List.Forall₂ (fun fill trade => nativeFillMatchesTrade fill trade = true)
    (ownFills order.nativeFills) matched ∧ (matched ++ remaining order).Perm order.venueTrades
  /-- What remains, the inferred fills cover as far as the arithmetic can tell. -/
  own : inferredFills order.nativeFills = [] → remaining order = []
  aggregate : inferredFills order.nativeFills ≠ [] →
    aggregateCovers (inferredFills order.nativeFills) (remaining order) = .ok true
  quantity : (inferredFills order.nativeFills ≠ [] → ExactOrder order) →
    (nativeQuantities order.nativeFills).sum = (quantities order.venueTrades).sum
  cost : (inferredFills order.nativeFills ≠ [] → ExactOrder order) →
    (products (nativeCosts order.nativeFills)).sum = (products (costs order.venueTrades)).sum

/-- A total over the fills is one over the trades, if it is so of the matched ones and of the
rest. -/
theorem sum_of_matched {f : NativeFill ℚ → ℚ} {g : FeeTrade ℚ → ℚ} {matched : List (FeeTrade ℚ)}
    (pairs : List.Forall₂ (fun fill trade => nativeFillMatchesTrade fill trade = true)
      (ownFills order.nativeFills) matched)
    (shared : (matched ++ remaining order).Perm order.venueTrades)
    (each : ∀ fill trade, nativeFillMatchesTrade fill trade = true → f fill = g trade)
    (rest : ((inferredFills order.nativeFills).map f).sum = ((remaining order).map g).sum) :
    (order.nativeFills.map f).sum = (order.venueTrades.map g).sum := by
  have split : (inferredFills order.nativeFills ++ ownFills order.nativeFills).Perm
      order.nativeFills := by
    have parts := List.filter_append_perm
      (fun fill : NativeFill ℚ => decide (fill.nativeFillOrigin = key "inferred")) order.nativeFills
    simpa [inferredFills, ownFills] using parts
  have own : (ownFills order.nativeFills).map f = matched.map g := by
    clear split shared rest
    generalize ownFills order.nativeFills = fills at pairs ⊢
    induction pairs with
    | nil => rfl
    | cons first _ ih => rw [List.map_cons, List.map_cons, each _ _ first, ih]
  rw [← (split.map f).sum_eq, ← (shared.map g).sum_eq, List.map_append, List.map_append,
    List.sum_append, List.sum_append, own, rest, add_comm]

theorem Covered.sound (unique : (order.venueTrades.map (·.tradeId)).Nodup)
    (covered : Covered fromDecimal order) : Sound order := by
  have found : ∀ fill ∈ ownFills order.nativeFills, ∃ trade ∈ order.venueTrades,
      tradeText trade = fill.tradeId ∧ nativeFillMatchesTrade fill trade = true := by
    intro fill member
    obtain ⟨trade, listed, named, booked⟩ := covered.booked fill member
    exact ⟨trade, listed, named, booked.1⟩
  obtain ⟨matched, pairs, shared⟩ := exists_matched covered.once (tradeText_nodup unique) found
  have rest (exact' : inferredFills order.nativeFills ≠ [] → ExactOrder order) :
      (nativeQuantities (inferredFills order.nativeFills)).sum =
        (quantities (remaining order)).sum ∧
        (products (nativeCosts (inferredFills order.nativeFills))).sum =
          (products (costs (remaining order))).sum := by
    by_cases none : inferredFills order.nativeFills = []
    · rw [none, covered.own none]
      exact ⟨rfl, rfl⟩
    · obtain ⟨covers, computed, iff⟩ := aggregateCovers_exact (exact' none)
      have same : covers = true := Except.ok.inj (computed.symm.trans (covered.aggregate none))
      exact ⟨(iff.1 same).quantity, (iff.1 same).cost⟩
  have facts : ∀ fill trade, nativeFillMatchesTrade fill trade = true →
      fill.signedQuantity = trade.executionQty ∧ fill.price = trade.executionPrice := by
    intro fill trade same
    obtain ⟨-, quantity, price, -⟩ := of_decide_eq_true same
    exact ⟨quantity, price⟩
  refine ⟨⟨matched, pairs, shared⟩, covered.own, covered.aggregate, fun exact' => ?_,
    fun exact' => ?_⟩
  · exact sum_of_matched pairs shared (fun fill trade same => (facts fill trade same).1)
      (rest exact').1
  · have total := (rest exact').2
    simp only [products, nativeCosts, costs, List.map_map] at total ⊢
    refine sum_of_matched pairs shared (fun fill trade same => ?_) total
    obtain ⟨quantity, price⟩ := facts fill trade same
    simp only [Function.comp_apply, quantity, price]

/-- Where no conversion of a fee is refused, the coverage is decided. -/
theorem feeCoverageMatches_returns (unique : (order.venueTrades.map (·.tradeId)).Nodup)
    (exact' : inferredFills order.nativeFills ≠ [] → ExactOrder order)
    (converts : ∀ trade ∈ order.venueTrades, ∀ fee, trade.rawFee = some fee →
      ∃ cost, usdCommission fromDecimal fee = .ok cost) :
    ∃ covers, feeCoverageMatches fromDecimal order = .ok covers := by
  have booked : ∀ (native : NativeFill ℚ), ∀ trade ∈ order.venueTrades,
      ∃ b, feeBooked fromDecimal native trade = .ok b := by
    intro native trade listed
    unfold feeBooked
    cases fee : trade.rawFee with
    | none => exact ⟨true, rfl⟩
    | some amount =>
      obtain ⟨cost, converted⟩ := converts trade listed amount fee
      simp only [converted]
      split
      · exact ⟨_, rfl⟩
      · split <;> exact ⟨_, rfl⟩
  have loop : ∀ (fills : List (NativeFill ℚ)) (pool : Pool),
      (∀ id trade, pool.1.get? id = some trade → trade ∈ order.venueTrades) →
      ∃ left, coverFills fromDecimal order fills pool = .ok left := by
    intro fills
    induction fills with
    | nil => exact fun pool _ => ⟨some pool, rfl⟩
    | cons native rest ih =>
      intro pool listed
      have turn : ∃ next, coverFill fromDecimal order native pool = .ok next ∧
          ∀ left, next = some left →
            ∀ id trade, left.1.get? id = some trade → trade ∈ order.venueTrades := by
        unfold coverFill
        split
        · exact ⟨none, rfl, nofun⟩
        · split
          · exact ⟨_, rfl, fun left same => by cases same; exact listed⟩
          · cases found : pool.1.get? native.tradeId with
            | none => exact ⟨none, rfl, nofun⟩
            | some trade =>
              obtain ⟨b, decided⟩ := booked native trade (listed _ trade found)
              simp only [decided]
              split
              · exact ⟨none, rfl, nofun⟩
              · refine ⟨_, rfl, fun left same id other held => ?_⟩
                split at same
                · cases same
                  rw [Dict.get?_erase] at held
                  split at held
                  · cases held
                  · exact listed id other held
                · cases same
      obtain ⟨next, first, kept⟩ := turn
      simp only [coverFills, first]
      cases next with
      | none => exact ⟨none, rfl⟩
      | some left => exact ih left (kept left rfl)
  unfold feeCoverageMatches
  split
  · exact ⟨false, rfl⟩
  · split
    · exact ⟨false, rfl⟩
    · obtain ⟨left, covered⟩ := loop order.nativeFills
        (Dict.ofList (order.venueTrades.map fun trade => (tradeText trade, trade)), [])
        fun id trade held => ((get?_trades unique).1 held).1
      simp only [covered]
      cases left with
      | none => exact ⟨false, rfl⟩
      | some left =>
        obtain ⟨-, -, -, rfl⟩ := coverFills_eq_ok.1 covered
        have values := values_erased unique (ownFills order.nativeFills)
        by_cases none : inferredFills order.nativeFills = []
        · exact ⟨_, if_pos none⟩
        · obtain ⟨covers, computed, -⟩ := aggregateCovers_exact (exact' none)
          refine ⟨covers, (if_neg none).trans ?_⟩
          rw [← computed]
          exact congrArg (aggregateCovers _) values

end Soundness

end ArbNautilus.Bitfinex.FeeCoverage
