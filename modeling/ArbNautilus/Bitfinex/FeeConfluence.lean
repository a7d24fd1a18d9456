import ArbNautilus.Bitfinex.FeeEvidence

namespace ArbNautilus.Bitfinex.Cids

open Base Handler
open Store (Publication)

section Confluence

/-- Reports of orders that are new to the store, none against another. -/
structure Consistent (s : CidStore) (reports : List Report) : Prop where
  rowless : ∀ r ∈ reports, r.scope.nativeFills = [] ∧ r.scope.venueTrades = []
  bound : ∀ r ∈ reports, s.byCid.get? r.scope.cid ≠ none
  fresh : ∀ r ∈ reports, s.feeMetadata.get? r.scope.cid = none ∧ ∀ cid metadata,
    s.feeMetadata.get? cid = some metadata → metadata.venueOrderId ≠ r.scope.venueOrderId
  orders : ∀ r ∈ reports, ∀ r' ∈ reports,
    r.scope.cid = r'.scope.cid ∨ r.scope.venueOrderId = r'.scope.venueOrderId → r.scope = r'.scope
  fills : ∀ cid, ∀ f ∈ seenFills reports cid, ∀ f' ∈ seenFills reports cid,
    f.tradeId = f'.tradeId → f = f'
  trades : ∀ cid, ∀ t ∈ seenTrades reports cid, ∀ t' ∈ seenTrades reports cid,
    t.tradeId = t'.tradeId →
      t.pending = t'.pending ∧ (t.rawFee ≠ none → t'.rawFee ≠ none → t = t')

variable {start s : CidStore} {reports done : List Report} {r : Report} {cid : ℤ}
  {current : FeeMetadata Decimal}

theorem seenFills_mono {some all : List Report} (subset : ∀ r ∈ some, r ∈ all) :
    seenFills some cid ⊆ seenFills all cid :=
  fun _ ⟨r, member, named, fill⟩ => ⟨r, subset r member, named, fill⟩

theorem seenTrades_mono {some all : List Report} (subset : ∀ r ∈ some, r ∈ all) :
    seenTrades some cid ⊆ seenTrades all cid :=
  fun _ ⟨r, member, named, trade⟩ => ⟨r, subset r member, named, trade⟩

theorem Consistent.of_subset {some all : List Report} (consistent : Consistent start all)
    (subset : ∀ r ∈ some, r ∈ all) : Consistent start some where
  rowless r member := consistent.rowless r (subset r member)
  bound r member := consistent.bound r (subset r member)
  fresh r member := consistent.fresh r (subset r member)
  orders r member r' member' := consistent.orders r (subset r member) r' (subset r' member')
  fills cid f hf f' hf' :=
    consistent.fills cid f (seenFills_mono subset hf) f' (seenFills_mono subset hf')
  trades cid t ht t' ht' :=
    consistent.trades cid t (seenTrades_mono subset ht) t' (seenTrades_mono subset ht')

/-- A trade without its final fee has no fee currency. -/
theorem pending_of_seen {t : FeeTrade ℚ} (seen : t ∈ seenTrades reports cid)
    (open' : t.rawFee = none) : t.pending = t := by
  obtain ⟨r, -, -, execution, final, -, rfl⟩ := seen
  cases final with
  | none => rfl
  | some final => cases open'

theorem Consistent.coherent (consistent : Consistent start reports) :
    Coherent FeeTrade.tradeId (·.rawFee ≠ none) (seenTrades reports cid) := by
  intro t ht t' ht' named strength
  obtain ⟨pending, fees⟩ := consistent.trades cid t ht t' ht' named
  by_cases final : t.rawFee ≠ none
  · exact fees final (strength.1 final)
  · have final' := not_not.1 fun final' => final (strength.2 final')
    rw [← pending_of_seen ht (not_not.1 final), ← pending_of_seen ht' final', pending]

/-- The metadata of an order against the reports about it. -/
structure Holds (done : List Report) (cid : ℤ) (metadata : FeeMetadata Decimal) : Prop where
  fills : ∀ f, f ∈ metadata.facts.nativeFills ↔ f ∈ seenFills done cid
  trades : ∀ t, t ∈ metadata.facts.venueTrades ↔ t ∈ settledTrades done cid
  once : metadata.Once

structure Reflects (start : CidStore) (done : List Report) (s : CidStore) : Prop where
  byCid : s.byCid = start.byCid
  others : ∀ cid, (∀ r ∈ done, r.scope.cid ≠ cid) →
    s.feeMetadata.get? cid = start.feeMetadata.get? cid
  held : ∀ r ∈ done, ∃ metadata, s.feeMetadata.get? r.scope.cid = some metadata ∧
    metadata.scope = r.scope ∧ Holds done r.scope.cid metadata

theorem reflects_start :
    Reflects start [] start := ⟨rfl, fun _ _ => rfl, fun _ member => absurd member List.not_mem_nil⟩

theorem seenFills_concat {f : NativeFill ℚ} : f ∈ seenFills (done ++ [r]) cid ↔
    f ∈ seenFills done cid ∨
      r.scope.cid = cid ∧ ∃ fill, r.evidence = .native fill ∧ fill.facts = f := by
  simp only [seenFills, Set.mem_ofPred_eq, List.mem_append, List.mem_singleton, or_and_right,
    exists_or, exists_eq_left]

theorem seenTrades_concat {t : FeeTrade ℚ} : t ∈ seenTrades (done ++ [r]) cid ↔
    t ∈ seenTrades done cid ∨ r.scope.cid = cid ∧ ∃ execution final,
      r.evidence = .venue execution final ∧ (feeTradeEvidence execution final).facts = t := by
  simp only [seenTrades, Set.mem_ofPred_eq, List.mem_append, List.mem_singleton, or_and_right,
    exists_or, exists_eq_left]

/-- A report of another order tells nothing of this one. -/
theorem Holds.of_ne {metadata : FeeMetadata Decimal} (holds : Holds done cid metadata)
    (other : r.scope.cid ≠ cid) : Holds (done ++ [r]) cid metadata := by
  have fills : seenFills (done ++ [r]) cid = seenFills done cid := by
    ext f
    rw [seenFills_concat, or_iff_left (fun same => other same.1)]
  have trades : seenTrades (done ++ [r]) cid = seenTrades done cid := by
    ext t
    rw [seenTrades_concat, or_iff_left (fun same => other same.1)]
  refine ⟨fun f => ?_, fun t => ?_, holds.once⟩
  · rw [fills]
    exact holds.fills f
  · rw [settledTrades, trades]
    exact holds.trades t

variable (reflects : Reflects start done s) (consistent : Consistent start (done ++ [r]))

include reflects consistent

/-- What is recorded of the order so far, be it nothing. -/
theorem Reflects.known : ∃ current, (s.feeMetadata.get? r.scope.cid).getD r.scope = current ∧
    current.scope = r.scope ∧ Holds done r.scope.cid current := by
  have last : r ∈ done ++ [r] := by simp
  by_cases known : ∃ r' ∈ done, r'.scope.cid = r.scope.cid
  · obtain ⟨r', member, same⟩ := known
    obtain ⟨metadata, held, scope, holds⟩ := reflects.held r' member
    rw [same] at held holds
    refine ⟨metadata, by rw [held, Option.getD_some], ?_, holds⟩
    rw [scope, consistent.orders r' (by simp [member]) r last (.inl same)]
  · push Not at known
    obtain ⟨fills, trades⟩ := consistent.rowless r last
    have bare : r.scope.scope = r.scope := by
      unfold FeeMetadata.scope
      rw [← fills, ← trades]
    refine ⟨r.scope, ?_, bare, ⟨fun f => ?_, fun t => ?_, ⟨by simp [fills], by simp [trades]⟩⟩⟩
    · rw [reflects.others _ known, (consistent.fresh r last).1, Option.getD_none]
    · simp only [FeeMetadata.facts, FeeMetadata.map, fills, List.map_nil, List.not_mem_nil,
        false_iff]
      rintro ⟨r', member, same, -⟩
      exact known r' member same
    · simp only [FeeMetadata.facts, FeeMetadata.map, trades, List.map_nil, List.not_mem_nil,
        false_iff]
      rintro ⟨⟨r', member, same, -⟩, -⟩
      exact known r' member same

/-- No other metadata has the order of the report. -/
theorem Reflects.apart : ¬∃ row ∈ s.feeMetadata.values,
    row.cid ≠ r.scope.cid ∧ row.venueOrderId = r.scope.venueOrderId := by
  have last : r ∈ done ++ [r] := by simp
  rintro ⟨row, listed, other, venue⟩
  obtain ⟨cid, held⟩ := (Dict.mem_values_iff _ _).1 listed
  by_cases known : ∃ r' ∈ done, r'.scope.cid = cid
  · obtain ⟨r', member, rfl⟩ := known
    obtain ⟨metadata, held', scope, -⟩ := reflects.held r' member
    obtain rfl : metadata = row := Option.some.inj (held'.symm.trans held)
    have venues : r'.scope.venueOrderId = r.scope.venueOrderId :=
      (congrArg FeeMetadata.venueOrderId scope).symm.trans venue
    have same := consistent.orders r' (by simp [member]) r last (.inr venues)
    exact other ((congrArg FeeMetadata.cid scope).trans (congrArg FeeMetadata.cid same))
  · push Not at known
    rw [reflects.others cid known] at held
    exact (consistent.fresh r last).2 cid row held venue

theorem Reflects.scope : ∃ current, s.feeScope r.scope = .ok current ∧
    current.scope = r.scope ∧ Holds done r.scope.cid current := by
  have last : r ∈ done ++ [r] := by simp
  obtain ⟨current, named, own, holds⟩ := reflects.known consistent
  obtain ⟨fills, trades⟩ := consistent.rowless r last
  refine ⟨current, ?_, own, holds⟩
  have bound : ¬(s.byCid.get? r.scope.cid = none ∨ r.scope.nativeFills ≠ [] ∨
      r.scope.venueTrades ≠ []) := by
    rw [reflects.byCid, fills, trades]
    simpa using consistent.bound r last
  have placed : ¬(current.scope ≠ r.scope ∨ ∃ row ∈ s.feeMetadata.values,
      row.cid ≠ r.scope.cid ∧ row.venueOrderId = r.scope.venueOrderId) := by
    rintro (different | found)
    · exact different own
    · exact reflects.apart consistent found
  simp only [CidStore.feeScope, named, bind_eq_ok, raiseIf_eq_ok, pure_eq_ok]
  exact ⟨(), bound, (), placed, trivial⟩

omit reflects

/-- Consistent reports do not contradict what is recorded of them. -/
theorem Holds.agrees (holds : Holds done r.scope.cid current) : Agrees current r.evidence := by
  have earlier : ∀ r' ∈ done, r' ∈ done ++ [r] := fun r' member => by simp [member]
  cases evidence : r.evidence with
  | native fill =>
    intro row listed named
    have seen := (holds.fills row.facts).1 (List.mem_map_of_mem listed)
    exact consistent.fills _ _ (seenFills_mono earlier seen) fill.facts
      (seenFills_concat.2 (.inr ⟨rfl, fill, evidence, rfl⟩)) named
  | venue execution final =>
    intro row listed named
    have seen := ((holds.trades row.facts).1 (List.mem_map_of_mem listed)).1
    obtain ⟨pending, fees⟩ := consistent.trades _ _ (seenTrades_mono earlier seen)
      (feeTradeEvidence execution final).facts
      (seenTrades_concat.2 (.inr ⟨rfl, execution, final, evidence, rfl⟩)) named
    refine ⟨pending, fun mine theirs => fees (fun none => mine ?_) fun none => theirs ?_⟩
    · exact Option.map_eq_none_iff.1 none
    · exact Option.map_eq_none_iff.1 (Option.map_eq_none_iff.1 none)

/-- The merge of a report is what the reports with it settle. -/
theorem Holds.merges {merged : FeeMetadata Decimal} (holds : Holds done r.scope.cid current)
    (merges : Merges current r.evidence merged) (once : merged.Once) :
    Holds (done ++ [r]) r.scope.cid merged := by
  cases evidence : r.evidence with
  | native fill =>
    rw [evidence] at merges
    obtain ⟨rows, fills⟩ := merges
    have trades : seenTrades (done ++ [r]) r.scope.cid = seenTrades done r.scope.cid := by
      ext t
      rw [seenTrades_concat, or_iff_left]
      rintro ⟨-, execution, final, other, -⟩
      cases evidence.symm.trans other
    refine ⟨fun f => ?_, fun t => ?_, once⟩
    · rw [fills, holds.fills, seenFills_concat, or_comm]
      refine or_congr_right ⟨fun same => ⟨rfl, fill, evidence, same.symm⟩, ?_⟩
      rintro ⟨-, fill', other, rfl⟩
      cases evidence.symm.trans other
      rfl
    · rw [settledTrades, trades, ← settledTrades, ← holds.trades]
      unfold FeeMetadata.facts FeeMetadata.map
      rw [rows]
  | venue execution final =>
    rw [evidence] at merges
    obtain ⟨rows, trades⟩ := merges
    have fills : seenFills (done ++ [r]) r.scope.cid = seenFills done r.scope.cid := by
      ext f
      rw [seenFills_concat, or_iff_left]
      rintro ⟨-, fill, other, -⟩
      cases evidence.symm.trans other
    have insert : seenTrades (done ++ [r]) r.scope.cid =
        insert (feeTradeEvidence execution final).facts (seenTrades done r.scope.cid) := by
      ext t
      rw [seenTrades_concat, Set.mem_insert_iff, or_comm]
      refine or_congr_left ⟨?_, fun same => ⟨rfl, execution, final, evidence, same.symm⟩⟩
      rintro ⟨-, execution', final', other, rfl⟩
      cases evidence.symm.trans other
      rfl
    have coherent : Coherent _ _ (seenTrades (done ++ [r]) r.scope.cid) := consistent.coherent
    rw [insert] at coherent
    refine ⟨fun f => ?_, fun t => ?_, once⟩
    · rw [fills, ← holds.fills]
      unfold FeeMetadata.facts FeeMetadata.map
      rw [rows]
    · rw [settledTrades, insert]
      obtain ⟨⟨row, listed, named, fee⟩, kept⟩ | ⟨unsure, kept⟩ := trades
      · have known := (holds.trades row.facts).1 (List.mem_map_of_mem listed)
        rw [kept, holds.trades, best_insert_final coherent known named
          (fun none => fee (Option.map_eq_none_iff.1 none))]
        rfl
      · rw [kept, mem_best_insert coherent, holds.trades]
        · rfl
        · intro t' known same
          obtain ⟨row, listed, rfl⟩ := List.mem_map.1 ((holds.trades t').2 known)
          exact not_not.2 (Option.map_eq_none_iff.2 (unsure row listed same))

omit consistent

/-- A consistent report is recorded, whatever becomes of its write. -/
theorem Reflects.step {p : Process} {outcome : Publication} (reflects : Reflects start done p.store)
    (consistent : Consistent start (done ++ [r])) :
    Reflects start (done ++ [r]) ((r.record outcome).after p).store ∧
      ∀ e, (r.record outcome p).1 = .error e → e = .osError ∨ e = .parentDirectorySync := by
  obtain ⟨current, known, own, holds⟩ := reflects.scope consistent
  have accepted : Merged p current r.evidence (r.record outcome p) :=
    record_merged holds.once known (holds.agrees consistent)
  obtain ⟨merged, scope, once, merges, saved⟩ := accepted.saved
  have named : merged.cid = r.scope.cid :=
    (congrArg FeeMetadata.cid scope).trans (congrArg FeeMetadata.cid own)
  have others := saved.others
  rw [named] at others
  refine ⟨⟨saved.byCid.trans reflects.byCid, fun cid unseen => ?_, fun r' member => ?_⟩,
    saved.raised⟩
  · rw [Handler.after, others cid (Ne.symm (unseen r (by simp)))]
    exact reflects.others cid fun r' member => unseen r' (by simp [member])
  · by_cases here : r'.scope.cid = r.scope.cid
    · obtain ⟨stored, found, same⟩ := saved.held
      have held : Holds (done ++ [r]) r.scope.cid stored := by
        have holds := holds.merges consistent merges once
        exact ⟨same ▸ holds.fills, same ▸ holds.trades, once.of_facts same⟩
      have scopes : stored.scope = merged.scope := by
        have cid := congrArg FeeMetadata.cid same
        have venue := congrArg FeeMetadata.venueOrderId same
        have instrument := congrArg FeeMetadata.instrumentId same
        have symbol := congrArg FeeMetadata.rawSymbol same
        simp only [FeeMetadata.facts, FeeMetadata.map] at cid venue instrument symbol
        simp only [FeeMetadata.scope, cid, venue, instrument, symbol]
      rw [here]
      rw [named] at found
      refine ⟨stored, found, ?_, held⟩
      rw [scopes, scope, own, consistent.orders r (by simp) r' member (.inl here.symm)]
    · have old : r' ∈ done := by
        obtain old | new := List.mem_append.1 member
        · exact old
        · exact absurd (congrArg (·.scope.cid) (List.mem_singleton.1 new)) here
      obtain ⟨metadata, held, same, holds⟩ := reflects.held r' old
      exact ⟨metadata, (others _ here).trans held, same, holds.of_ne (Ne.symm here)⟩

theorem Reflects.run {reports : List (Report × Publication)} : ∀ {done : List Report} {p : Process},
    Reflects start done p.store → Consistent start (done ++ reports.map Prod.fst) →
      Reflects start (done ++ reports.map Prod.fst) (record p reports).store := by
  induction reports with
  | nil =>
    intro done p reflects _
    rw [List.map_nil, List.append_nil]
    exact reflects
  | cons report rest ih =>
    intro done p reflects consistent
    rw [List.map_cons, List.append_cons] at consistent ⊢
    refine ih (reflects.step (consistent.of_subset fun r member => ?_)).1 consistent
    exact List.mem_append_left _ member

end Confluence

section Main

variable {start : CidStore} {reports reports' : List Report} {cid : ℤ}

/-- What a store reflects depends on the set of the reports alone. -/
theorem Reflects.same {s s' : CidStore} (reflects : Reflects start reports s)
    (reflects' : Reflects start reports' s') (same : ∀ r, r ∈ reports ↔ r ∈ reports') (cid : ℤ) :
    (∀ f, f ∈ s.fillsOf cid ↔ f ∈ s'.fillsOf cid) ∧
      ∀ t, t ∈ s.tradesOf cid ↔ t ∈ s'.tradesOf cid := by
  by_cases known : ∃ r ∈ reports, r.scope.cid = cid
  · obtain ⟨r, member, rfl⟩ := known
    obtain ⟨metadata, held, -, holds⟩ := reflects.held r member
    obtain ⟨metadata', held', -, holds'⟩ := reflects'.held r ((same r).1 member)
    have fills : seenFills reports r.scope.cid = seenFills reports' r.scope.cid :=
      Set.Subset.antisymm (seenFills_mono fun r => (same r).1) (seenFills_mono fun r => (same r).2)
    have trades : seenTrades reports r.scope.cid = seenTrades reports' r.scope.cid :=
      Set.Subset.antisymm (seenTrades_mono fun r => (same r).1)
        (seenTrades_mono fun r => (same r).2)
    simp only [CidStore.fillsOf, CidStore.tradesOf, held, held', Option.elim_some]
    refine ⟨fun f => ?_, fun t => ?_⟩
    · rw [holds.fills, holds'.fills, fills]
    · rw [holds.trades, holds'.trades, settledTrades, settledTrades, trades]
  · push Not at known
    have rows := reflects.others cid known
    have rows' := reflects'.others cid fun r member => known r ((same r).2 member)
    simp only [CidStore.fillsOf, CidStore.tradesOf, rows, rows', implies_true, and_self]

theorem FeesOnce.run {reports : List (Report × Publication)} : ∀ {p : Process},
    FeesOnce p.store → FeesOnce (record p reports).store := by
  induction reports with
  | nil => exact fun once => once
  | cons report rest ih => exact fun once => ih once.recorded

theorem final_kept_run {reports : List (Report × Publication)} {t : FeeTrade ℚ}
    (final : t.rawFee ≠ none) : ∀ {p : Process}, FeesOnce p.store →
      t ∈ p.store.tradesOf cid → t ∈ (record p reports).store.tradesOf cid := by
  induction reports with
  | nil => exact fun _ listed => listed
  | cons report rest ih =>
    exact fun once listed => ih once.recorded (final_kept once listed final)

/-- What the evidence about fees comes to, in whatever order it is recorded. -/
structure Confluent (p : Process) : Prop where
  /-- The reports are recorded, also where their writes fail. -/
  accepted : ∀ before r after, Consistent p.store ((before ++ r :: after).map Prod.fst) → ∀ e,
    (r.1.record r.2 (record p before)).1 = .error e → e = .osError ∨ e = .parentDirectorySync
  settled : ∀ reports, Consistent p.store (reports.map Prod.fst) → ∀ r ∈ reports,
    (∀ f, f ∈ (record p reports).store.fillsOf r.1.scope.cid ↔
      f ∈ seenFills (reports.map Prod.fst) r.1.scope.cid) ∧
    ∀ t, t ∈ (record p reports).store.tradesOf r.1.scope.cid ↔
      t ∈ settledTrades (reports.map Prod.fst) r.1.scope.cid
  confluent : ∀ reports reports', Consistent p.store (reports.map Prod.fst) →
    (∀ r, r ∈ reports.map Prod.fst ↔ r ∈ reports'.map Prod.fst) → ∀ cid,
    (∀ f, f ∈ (record p reports).store.fillsOf cid ↔ f ∈ (record p reports').store.fillsOf cid) ∧
    ∀ t, t ∈ (record p reports).store.tradesOf cid ↔ t ∈ (record p reports').store.tradesOf cid
  final : ∀ before after cid, ∀ t ∈ (record p before).store.tradesOf cid, t.rawFee ≠ none →
    t ∈ (record p (before ++ after)).store.tradesOf cid
  refused : ∀ before r outcome, Contradicts (record p before).store r →
    Refuses (record p before) (r.record outcome (record p before))
  raised : ∀ before scope execution final outcome marking,
    Contradicts (record p before).store ⟨scope, .venue execution final⟩ →
    ∃ e q, recordFeeTrade outcome marking scope (feeTradeEvidence execution final)
      (record p before) = (.error e, q) ∧
        q.store.feeMetadata = (record p before).store.feeMetadata

/-- Reports that agree leave the same evidence in whatever order and number they come, what is final
stays, and a report that contradicts it is refused with nothing of the evidence changed. -/
theorem fee_evidence {p : Process} (once : FeesOnce p.store) : Confluent p where
  accepted before r after consistent := by
    have whole : Consistent p.store (before.map Prod.fst ++ [r.1]) := by
      refine consistent.of_subset fun r' member => ?_
      rw [List.map_append, List.map_cons, List.append_cons]
      exact List.mem_append_left _ member
    have first : Consistent p.store ([] ++ before.map Prod.fst) :=
      whole.of_subset fun r' member => List.mem_append_left _ member
    exact (Reflects.step (reflects_start.run first) whole).2
  settled reports consistent r member := by
    have reflects : Reflects p.store _ (record p reports).store := reflects_start.run consistent
    obtain ⟨metadata, held, -, holds⟩ := reflects.held r.1 (List.mem_map_of_mem member)
    simp only [CidStore.fillsOf, CidStore.tradesOf, held, Option.elim_some]
    exact ⟨holds.fills, holds.trades⟩
  confluent reports reports' consistent same := by
    have consistent' := consistent.of_subset fun r => (same r).2
    exact Reflects.same (reflects_start.run consistent) (reflects_start.run consistent') same
  final before after cid t listed final := by
    rw [record, List.foldl_append]
    exact final_kept_run final once.run listed
  refused before r outcome against := contradicts_refuses once.run against
  raised before scope execution final outcome marking against := by
    obtain ⟨e, raised, fees⟩ := contradicts_raises outcome marking once.run against
    exact ⟨e, _, Prod.ext raised rfl, fees⟩

def demoFinal : Option (Decimal × PyStr) := some (⟨true, 25, -2⟩, key "USD")

def demoFill : NativeFill Decimal where
  tradeId := key "7"
  nativeFillOrigin := key "tu"
  signedQuantity := ⟨false, 125, -2⟩
  price := ⟨false, 2000, 0⟩
  tsEventNs := 900000000
  liquiditySide := key "MAKER"
  commission := ⟨false, 25, -2⟩
  commissionCurrency := key "USD"

def demoProcess : Process where
  file := .absent
  durable := .absent
  store :=
    { accountId := demoAccount, byCid := Dict.empty.set 1001 ⟨key "O-2", 1001, key "1970-01-01"⟩ }

/-- The interim trade, its update whose write fails, the interim trade again, and the fill. -/
def demoReports : List (Report × Publication) :=
  [(⟨demoScope, .venue demoTrade none⟩, .published),
    (⟨demoScope, .venue demoTrade demoFinal⟩, .failed),
    (⟨demoScope, .venue demoTrade none⟩, .parentSyncFailed),
    (⟨demoScope, .native demoFill⟩, .published)]

def demoReordered : List (Report × Publication) :=
  [(⟨demoScope, .native demoFill⟩, .failed),
    (⟨demoScope, .venue demoTrade demoFinal⟩, .published),
    (⟨demoScope, .venue demoTrade none⟩, .published)]

theorem demoProcess_once : FeesOnce demoProcess.store :=
  fun _ metadata held => absurd (held : none = some metadata).symm (Option.some_ne_none metadata)

theorem demoReports_consistent : Consistent demoProcess.store (demoReports.map Prod.fst) := by
  have scopes : ∀ r ∈ demoReports.map Prod.fst, r.scope = demoScope := by
    simp [demoReports]
  have fills : ∀ cid, ∀ f ∈ seenFills (demoReports.map Prod.fst) cid, f = demoFill.facts := by
    rintro cid f ⟨r, member, -, fill, evidence, rfl⟩
    simp only [demoReports, List.map_cons, List.map_nil, List.mem_cons, List.not_mem_nil,
      or_false] at member
    obtain rfl | rfl | rfl | rfl := member <;> cases evidence
    rfl
  have trades : ∀ cid, ∀ t ∈ seenTrades (demoReports.map Prod.fst) cid,
      t = (feeTradeEvidence demoTrade none).facts ∨
        t = (feeTradeEvidence demoTrade demoFinal).facts := by
    rintro cid t ⟨r, member, -, execution, final, evidence, rfl⟩
    simp only [demoReports, List.map_cons, List.map_nil, List.mem_cons, List.not_mem_nil,
      or_false] at member
    obtain rfl | rfl | rfl | rfl := member <;> cases evidence
    · exact .inl rfl
    · exact .inr rfl
    · exact .inl rfl
  refine ⟨fun r member => ?_, fun r member => ?_, fun r member => ?_, fun r member r' member' _ =>
    ?_,
    fun cid f hf f' hf' _ => ?_, fun cid t ht t' ht' _ => ?_⟩
  · rw [scopes r member]
    exact ⟨rfl, rfl⟩
  · rw [scopes r member]
    decide +kernel
  · exact ⟨rfl, fun cid metadata held => absurd (held : none = some metadata).symm
      (Option.some_ne_none metadata)⟩
  · rw [scopes r member, scopes r' member']
  · rw [fills cid f hf, fills cid f' hf']
  · obtain rfl | rfl := trades cid t ht <;> obtain rfl | rfl := trades cid t' ht'
    · exact ⟨rfl, fun _ _ => rfl⟩
    · exact ⟨rfl, fun open' => absurd rfl open'⟩
    · exact ⟨rfl, fun _ open' => absurd rfl open'⟩
    · exact ⟨rfl, fun _ _ => rfl⟩

theorem demo_evidence :
    (∀ t, t ∈ (record demoProcess demoReports).store.tradesOf 1001 ↔
      t ∈ (record demoProcess demoReordered).store.tradesOf 1001) ∧
    (record demoProcess demoReports).store.tradesOf 1001 =
      [(feeTradeEvidence demoTrade demoFinal).facts] :=
  ⟨((fee_evidence demoProcess_once).confluent demoReports demoReordered
    demoReports_consistent (by simp [demoReports, demoReordered]; grind) 1001).2, by decide +kernel⟩

end Main

end ArbNautilus.Bitfinex.Cids
